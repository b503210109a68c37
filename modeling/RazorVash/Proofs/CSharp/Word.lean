import Mathlib.Data.Option.Basic
import RazorVash.Proofs.CSharp.Identifier

namespace RazorVash.CSharp

def BeginsBlank (text : Text) : Prop := ∃ blank rest, text = blank :: rest ∧ isBlank blank

/-- What is read together with a word: nothing, the blanks after it, or these and the next word. -/
inductive ReadsWord (word after : Text) : Reading → Prop
  | alone : ReadsWord word after (.lexemes [word.length] .root)
  | announcing (next : Mode) :
    ReadsWord word after (.lexemes [word.length, blankLength after] next)
  | paired : ReadsWord word after (.lexemes [word.length, blankLength after,
      (wordAt (after.drop (blankLength after))).length] .root)

/-- What a text begins with that has blanks, a word and more: some of the blanks, the word when
there are none, or the head of a method, which begins at the word. -/
inductive Begins (blanks word after : Text) : Reading → Prop
  | blanks {n : Nat} : 0 < n → n ≤ blanks.length → Begins blanks word after (.lexemes [n] .root)
  | word {r : Reading} : blanks = [] → ReadsWord word after r → Begins blanks word after r
  | methodHead {types name gap : Nat} : methodHead? (word ++ after) = some (types, name, gap) →
    Begins blanks word after (.declaration blanks.length types name gap)

variable {c : Char} {t blanks after rest : Text} {before : Option Char} {mode : Mode} {r : Reading}

/-! ### Blanks -/

def blankPoints : List Nat := [9, 10, 11, 12, 13, 28, 29, 30, 31, 32, 0x85, 0xA0, 0x1680, 0x2000,
  0x2001, 0x2002, 0x2003, 0x2004, 0x2005, 0x2006, 0x2007, 0x2008, 0x2009, 0x200A, 0x2028, 0x2029,
  0x202F, 0x205F, 0x3000]

theorem forall_isBlank {p : Char → Prop} (h : ∀ n ∈ blankPoints, p (Char.ofNat n))
    (hc : isBlank c) : p c := by
  have hPoint : c.toNat ∈ blankPoints := by
    simp only [isBlank, Bool.or_eq_true, Bool.and_eq_true, decide_eq_true_eq] at hc
    simp only [blankPoints, List.mem_cons, List.not_mem_nil]
    omega
  simpa only [Char.ofNat_toNat] using h c.toNat hPoint

theorem isIdentifierPart_of_isBlank (h : isBlank c) : isIdentifierPart c = false :=
  forall_isBlank (p := fun c => isIdentifierPart c = false) (by decide +kernel) h

theorem isWord_of_isBlank (h : isBlank c) : isWord c = false :=
  forall_isBlank (p := fun c => isWord c = false) (by decide +kernel) h

theorem isBlank_of_isNamePart (h : isNamePart c) : isBlank c = false := by
  by_contra hBlank
  have hWord := isWord_of_isBlank (Bool.of_not_eq_false hBlank)
  rw [isWord_of_isNamePart h] at hWord
  cases hWord

/-- Characters that begin something else than a name or blanks. -/
def marks : List Char := "0123456789.[(\\/\n><+-*%&|^?!~=)];:,\x7b\x7d\"$@'#".toList

theorem notMem_marks_of_isNameStart (h : isNameStart c) : c ∉ marks := by
  have hMarks : marks.all (!isNameStart ·) := by decide
  intro hc
  have hNot := List.all_eq_true.1 hMarks c hc
  rw [h] at hNot
  cases hNot

theorem BeginsBlank.head? (h : BeginsBlank after) {p : Char → Bool}
    (hp : ∀ c, isBlank c → p c = false) : ∀ c ∈ after.head?, p c = false := by
  obtain ⟨blank, rest, rfl, hBlank⟩ := h
  rintro c ⟨⟩
  exact hp blank hBlank

/-! ### The word at the beginning of a text -/

theorem IsName.identifierLength? (h : IsName t) (hAfter : BeginsBlank after) :
    identifierLength? (t ++ after) = some t.length :=
  identifierLength?_append h.isIdentifier (hAfter.head? fun _ => isIdentifierPart_of_isBlank)

theorem IsName.wordAt (h : IsName t) (hAfter : BeginsBlank after) : wordAt (t ++ after) = t :=
  takeWhile_append (fun c hc => isWord_of_isNamePart (h.isNamePart c hc))
    (hAfter.head? fun _ => isWord_of_isBlank)

theorem blankLength_append (hBlanks : blanks.allBlank) (ht : IsName t) :
    blankLength (blanks ++ (t ++ after)) = blanks.length := by
  obtain ⟨start, rest, rfl, hStart⟩ := ht.exists_cons
  refine runLength_append (List.all_eq_true.1 hBlanks) ?_
  rintro c ⟨⟩
  exact isBlank_of_isNamePart (isNamePart_of_isNameStart hStart)

theorem blankLength_pos (h : BeginsBlank after) : 0 < blankLength after := by
  obtain ⟨blank, rest, rfl, hBlank⟩ := h
  rw [blankLength, runLength, List.takeWhile_cons_of_pos hBlank]
  exact Nat.succ_pos _

/-! ### What a word does not begin -/

theorem numberLength?_cons (hDigit : c.isDigit = false) (hPoint : c ≠ '.') :
    numberLength? (c :: rest) = none := by
  have hDigits : digitsLength (c :: rest) = 0 := by simp [digitsLength, runLength, hDigit]
  have hZero : c ≠ '0' := by
    rintro rfl
    cases hDigit
  simp [numberLength?, realLength?, fractionLength?, basedLength?, decimalLength?, beginsWithAny,
    hDigits, hPoint, hZero]

theorem beginsWithAny_cons (chars : List Char) (h : c ∉ marks) (hChars : chars ⊆ marks) :
    beginsWithAny chars (c :: rest) = false :=
  decide_eq_false fun hc => h (hChars hc)

theorem IsName.beginsWithAny (ht : IsName t) (after : Text) (hc : c ∈ marks) :
    beginsWithAny [c] (t ++ after) = false := by
  obtain ⟨start, rest, rfl, hStart⟩ := ht.exists_cons
  exact beginsWithAny_cons [c] (notMem_marks_of_isNameStart hStart) (by simpa using hc)

theorem after?_cons_isSome {start : Text} {d : Char} (h : c ∉ marks) (hd : d ∈ marks) :
    (Text.after? (d :: start) (c :: rest)).isSome = false := by
  have hNe : d ≠ c := by
    rintro rfl
    exact h hd
  rw [Text.after?, if_neg hNe]
  rfl

theorem operatorLength?_cons (h : c ∉ marks) : operatorLength? (c :: rest) = none := by
  have hOperators : operators.all fun op => marks.any fun d => op.head? = some d := by decide
  rw [operatorLength?, Option.map_eq_none_iff, List.find?_eq_none]
  intro op hop
  obtain ⟨d, hd, hHead⟩ := List.any_eq_true.1 (List.all_eq_true.1 hOperators op hop)
  obtain ⟨start, rfl⟩ := List.head?_eq_some_iff.1 (of_decide_eq_true hHead)
  rw [after?_cons_isSome h hd]
  decide

theorem lineCommentLength?_cons (h : c ≠ '/') : lineCommentLength? (c :: rest) = none := by
  unfold lineCommentLength?
  split
  · next hText => exact absurd (List.cons.inj hText).1 h
  · rfl

theorem blockCommentLength?_cons (h : c ≠ '/') : blockCommentLength? (c :: rest) = none := by
  unfold blockCommentLength?
  split
  · next hText => exact absurd (List.cons.inj hText).1 h
  · rfl

theorem rawStringLength?_cons (hDollar : c ≠ '$') (hQuote : c ≠ '"') :
    rawStringLength? (c :: rest) = none := by
  have hDollars : runLength (· = '$') (c :: rest) = 0 := by simp [runLength, hDollar]
  have hQuotes : runLength (· = '"') (c :: rest) = 0 := by simp [runLength, hQuote]
  simp [rawStringLength?, hDollars, hQuotes]

theorem quotedLength?_cons (h : c ∉ ['$', '@', '"']) : quotedLength? (c :: rest) = none := by
  unfold quotedLength?
  split
  all_goals first
    | rfl
    | next hText => exact absurd (by simp [(List.cons.inj hText).1]) h

theorem characterLength?_cons (h : c ≠ '\'') : characterLength? (c :: rest) = none := by
  unfold characterLength?
  split
  · next hText => exact absurd (List.cons.inj hText).1 h
  · next hText => exact absurd (List.cons.inj hText).1 h
  · rfl

theorem symbolLength?_cons (h : c ∉ marks) (hBlank : isBlank c = false) :
    symbolLength? (c :: rest) = none := by
  have hMark (d : Char) (hd : d ∈ marks) : c ≠ d := by
    rintro rfl
    exact h hd
  have hBlanks : runLength (fun c => isBlank c && c ≠ '\n') (c :: rest) = 0 := by
    simp [runLength, hBlank]
  have hQuoted : c ∉ ['$', '@', '"'] := fun hc => h ((by decide : ['$', '@', '"'] ⊆ marks) hc)
  simp only [symbolLength?, hBlanks, after?_cons_isSome h (d := '\\') (by decide),
    lineCommentLength?_cons (hMark '/' (by decide)),
    blockCommentLength?_cons (hMark '/' (by decide)), beginsWithAny_cons ['\n'] h (by decide),
    operatorLength?_cons h, beginsWithAny_cons "()[];:,.\x7b\x7d".toList h (by decide),
    rawStringLength?_cons (hMark '$' (by decide)) (hMark '"' (by decide)),
    quotedLength?_cons hQuoted, characterLength?_cons (hMark '\'' (by decide))]
  rfl

theorem directive?_cons (h : c ∉ marks) : directive? (c :: rest) = none := by
  rw [directive?, beginsWithAny_cons _ h (by decide)]
  rfl

theorem attribute?_word (hBlanks : blanks.allBlank) (ht : IsName t) :
    attribute? (blanks ++ (t ++ after)) = none := by
  rw [attribute?, blankLength_append hBlanks ht, List.drop_left, ht.beginsWithAny after (by decide)]
  rfl

/-! ### Words -/

theorem drop_word (t after : Text) (n : Nat) : (t ++ after).drop (t.length + n) = after.drop n := by
  rw [← List.drop_drop, List.drop_left]

theorem wordPair?_word {first : Text} {second : List Text} {lengths : List Nat} (ht : IsName t)
    (hAfter : BeginsBlank after) (h : wordPair? first second (t ++ after) = some lengths) :
    lengths = [t.length, blankLength after,
      (wordAt (after.drop (blankLength after))).length] := by
  rw [wordPair?, ht.wordAt hAfter] at h
  split at h
  · next hFirst =>
    subst hFirst
    simp only [List.drop_left, drop_word] at h
    split at h
    · exact (Option.some.inj h).symm
    · cases h
  · cases h

theorem announcement?_word {words : List Text} {lengths : List Nat} (ht : IsName t)
    (hAfter : BeginsBlank after) (h : announcement? words (t ++ after) = some lengths) :
    lengths = [t.length, blankLength after] := by
  simp only [announcement?, ht.wordAt hAfter, List.drop_left] at h
  split at h
  · exact (Option.some.inj h).symm
  · cases h

theorem typeNameLength?_word {n : Nat} (ht : IsName t) (hAfter : BeginsBlank after)
    (h : typeNameLength? (t ++ after) = some n) : n = t.length := by
  obtain ⟨blank, rest, rfl, hBlank⟩ := hAfter
  have hMark : beginsWithAny ['?'] (blank :: rest) = false :=
    decide_eq_false (forall_isBlank (p := (· ∉ ['?'])) (by decide) hBlank)
  simp only [typeNameLength?, ht.wordAt ⟨blank, rest, rfl, hBlank⟩, List.drop_left, hMark] at h
  split at h
  · exact (Option.some.inj h).symm
  · cases h

theorem after?_global (ht : IsName t) (hAfter : BeginsBlank after) :
    (Text.after? "global::".toList (t ++ after)).isSome = false := by
  by_contra hSome
  obtain ⟨rest, hRest⟩ := Option.isSome_iff_exists.1 (Bool.of_not_eq_false hSome)
  have hText : t ++ after = "global".toList ++ (':' :: ':' :: rest) := by
    rw [Text.after?_eq_some.1 hRest]
    rfl
  have hWord : "global".toList = t := by
    rw [← ht.wordAt hAfter, hText]
    exact (takeWhile_append (List.all_eq_true.1 (by decide)) (by rintro c ⟨⟩; decide)).symm
  subst hWord
  obtain ⟨blank, more, rfl, hBlank⟩ := hAfter
  obtain ⟨rfl, -⟩ := List.cons.inj (List.append_cancel_left hText)
  exact absurd hBlank (by decide)

theorem readsWord_of_wordPair? {first : Text} {second : List Text} (ht : IsName t)
    (hAfter : BeginsBlank after)
    (h : (wordPair? first second (t ++ after)).map (Reading.lexemes · .root) = some r) :
    ReadsWord t after r := by
  obtain ⟨lengths, hPair, rfl⟩ := Option.map_eq_some_iff.1 h
  rw [wordPair?_word ht hAfter hPair]
  exact .paired

theorem readsWord_of_announcement? {words : List Text} {next : Mode} (ht : IsName t)
    (hAfter : BeginsBlank after)
    (h : (announcement? words (t ++ after)).map (Reading.lexemes · next) = some r) :
    ReadsWord t after r := by
  obtain ⟨lengths, hAnnounced, rfl⟩ := Option.map_eq_some_iff.1 h
  rw [announcement?_word ht hAfter hAnnounced]
  exact .announcing next

/-- A keyword, a pair, an announcement or an identifier is read as the word that it begins with. -/
theorem word?_word (before : Option Char) (ht : IsName t) (hAfter : BeginsBlank after) :
    ∃ r, word? before (t ++ after) = some r ∧ ReadsWord t after r := by
  have hReads (r : Reading) (h : word? before (t ++ after) = some r) : ReadsWord t after r := by
    rw [word?, after?_global ht hAfter, ht.wordAt hAfter, ht.identifierLength? hAfter] at h
    -- the alternatives in the order in which they are tried
    rcases (Option.orElse_eq_some _ _ _).1 h with hExtern | ⟨-, h⟩
    · split at hExtern
      · cases hExtern
      · exact readsWord_of_wordPair? ht hAfter hExtern
    rcases (Option.orElse_eq_some _ _ _).1 h with hKeyword | ⟨-, h⟩
    · split at hKeyword
      · exact Option.some.inj hKeyword ▸ .alone
      · cases hKeyword
    rcases (Option.orElse_eq_some _ _ _).1 h with hFile | ⟨-, h⟩
    · exact readsWord_of_wordPair? ht hAfter hFile
    rcases (Option.orElse_eq_some _ _ _).1 h with hGlobal | ⟨-, h⟩
    · cases hGlobal
    rcases (Option.orElse_eq_some _ _ _).1 h with hType | ⟨-, h⟩
    · obtain ⟨n, hn, rfl⟩ := Option.map_eq_some_iff.1 hType
      rw [typeNameLength?_word ht hAfter hn]
      exact .alone
    rcases (Option.orElse_eq_some _ _ _).1 h with hClass | ⟨-, h⟩
    · exact readsWord_of_announcement? ht hAfter hClass
    rcases (Option.orElse_eq_some _ _ _).1 h with hNamespace | ⟨-, h⟩
    · exact readsWord_of_announcement? ht hAfter hNamespace
    · exact Option.some.inj h ▸ .alone
  cases h : word? before (t ++ after) with
  | some r => exact ⟨r, rfl, hReads r h⟩
  | none =>
    simp only [word?, Option.orElse_eq_none, ht.identifierLength? hAfter, Option.map_some,
      reduceCtorEq, and_false] at h

/-! ### What is read first -/

theorem identifierLength?_blank (h : isBlank c) : identifierLength? (c :: rest) = none := by
  have hStart : isIdentifierStart c = false := by
    by_contra hStart
    have hWord := isWord_of_isIdentifierStart (Bool.of_not_eq_false hStart)
    rw [isWord_of_isBlank h] at hWord
    cases hWord
  unfold identifierLength?
  split
  · next hText =>
    obtain ⟨rfl, -⟩ := List.cons.inj hText
    exact absurd h (by decide)
  · next hText =>
    obtain ⟨rfl, -⟩ := List.cons.inj hText
    rw [hStart]
    rfl
  · rfl

theorem methodHead?_blank (h : isBlank c) : methodHead? (c :: rest) = none := by
  rw [methodHead?, typeLength?, identifierLength?_blank h]

theorem runLength_append_cases (p : Char → Bool) (blanks : Text)
    (hAfter : ∀ c ∈ after.head?, p c = false) :
    runLength p (blanks ++ after) = blanks.length ∨
      ∃ u c v, blanks = u ++ c :: v ∧ runLength p (blanks ++ after) = u.length := by
  have hSplit := List.takeWhile_append_dropWhile (p := p) (l := blanks)
  have hRun : ∀ c ∈ blanks.takeWhile p, p c := fun c hc => List.mem_takeWhile_imp hc
  cases hRest : blanks.dropWhile p with
  | nil =>
    rw [hRest, List.append_nil] at hSplit
    exact .inl (runLength_append (hSplit ▸ hRun) hAfter)
  | cons c v =>
    have hStop := List.head?_dropWhile_not p blanks
    rw [hRest] at hSplit hStop
    have hText : blanks ++ after = blanks.takeWhile p ++ (c :: (v ++ after)) := by
      rw [← List.cons_append, ← List.append_assoc, hSplit]
    refine .inr ⟨_, c, v, hSplit.symm, ?_⟩
    rw [hText]
    refine runLength_append hRun ?_
    rintro d ⟨⟩
    exact hStop

theorem IsName.head?_append (h : IsName t) (after : Text) {p : Char → Bool}
    (hp : ∀ c, isNameStart c → p c = false) : ∀ c ∈ (t ++ after).head?, p c = false := by
  obtain ⟨start, rest, rfl, hStart⟩ := h.exists_cons
  rintro c ⟨⟩
  exact hp start hStart

theorem begins_of_declaration? (hBlanks : blanks.allBlank) (ht : IsName t)
    (h : declaration? (blanks ++ (t ++ after)) = some r) : Begins blanks t after r := by
  have hStart (c : Char) (hc : isNameStart c) : (c = ' ' || c = '\t') = false := by
    have hBlank := isBlank_of_isNamePart (isNamePart_of_isNameStart hc)
    simp only [Bool.or_eq_false_iff, decide_eq_false_iff_not]
    constructor <;> (rintro rfl; cases hBlank)
  obtain ⟨⟨types, name, gap⟩, hHead, rfl⟩ := Option.map_eq_some_iff.1 h
  rcases runLength_append_cases (fun c => c = ' ' || c = '\t') blanks
    (ht.head?_append after hStart) with hIndent | ⟨u, c, v, rfl, hIndent⟩
  · rw [hIndent, List.drop_left] at hHead
    rw [hIndent]
    exact .methodHead hHead
  · rw [hIndent, List.append_assoc, List.drop_left, List.cons_append,
      methodHead?_blank (List.all_eq_true.1 hBlanks c (by simp))] at hHead
    cases hHead

/-- Blanks are read up to the next line break, and a line break on its own. -/
theorem symbolLength?_blanks (hBlanks : Text.allBlank (c :: blanks)) (ht : IsName t)
    (after : Text) :
    ∃ n, 0 < n ∧ n ≤ (c :: blanks).length ∧
      symbolLength? (c :: (blanks ++ (t ++ after))) = some n := by
  have hBlank : isBlank c := List.all_eq_true.1 hBlanks c (by simp)
  by_cases hBreak : c = '\n'
  · subst hBreak
    exact ⟨1, Nat.one_pos, by simp, rfl⟩
  · let p : Char → Bool := fun c => isBlank c && c ≠ '\n'
    have hStart (c : Char) (hc : isNameStart c) : p c = false := by
      simp [p, isBlank_of_isNamePart (isNamePart_of_isNameStart hc)]
    have hPos : runLength p (c :: (blanks ++ (t ++ after))) ≠ 0 := by
      simp [runLength, p, hBlank, hBreak]
    refine ⟨runLength p (c :: (blanks ++ (t ++ after))), Nat.pos_of_ne_zero hPos, ?_, if_pos hPos⟩
    rcases runLength_append_cases p (c :: blanks) (ht.head?_append after hStart) with
      hLength | ⟨u, d, v, hSplit, hLength⟩
    · exact hLength.le
    · rw [List.cons_append] at hLength
      rw [hLength, hSplit, List.length_append]
      exact Nat.le_add_right _ _

theorem isDigit_of_isNameStart (h : isNameStart c) : c.isDigit = false := by
  by_contra hDigit
  simp only [Bool.not_eq_false, Char.isDigit, Bool.and_eq_true, decide_eq_true_eq,
    UInt32.le_iff_toNat_le, ge_iff_le] at hDigit
  simp only [isNameStart, Bool.or_eq_true, decide_eq_true_eq, isAlpha_iff, isUpper_iff, isLower_iff,
    UInt32.le_iff_toNat_le] at h
  rcases h with (⟨hLeast, -⟩ | ⟨hLeast, -⟩) | rfl
  · exact absurd (hLeast.trans hDigit.2) (by decide)
  · exact absurd (hLeast.trans hDigit.2) (by decide)
  · exact absurd hDigit.2 (by decide)

theorem numberLength?_spaced (hBlanks : blanks.allBlank) (ht : IsName t) :
    numberLength? (blanks ++ (t ++ after)) = none := by
  cases blanks with
  | nil =>
    obtain ⟨start, rest, rfl, hStart⟩ := ht.exists_cons
    refine numberLength?_cons (isDigit_of_isNameStart hStart) ?_
    rintro rfl
    cases hStart
  | cons c blanks =>
    have hBlank : isBlank c := List.all_eq_true.1 hBlanks c (by simp)
    obtain ⟨hDigit, hPoint⟩ :=
      forall_isBlank (p := fun c => c.isDigit = false ∧ c ≠ '.') (by decide) hBlank
    exact numberLength?_cons hDigit hPoint

/-- What is neither the head of a method nor blanks is a word. -/
theorem rootReading_spaced (hBlanks : blanks.allBlank) (ht : IsName t) :
    rootReading before (blanks ++ (t ++ after)) =
      ((if isLineStart before then declaration? (blanks ++ (t ++ after)) else none) <|>
        (symbolLength? (blanks ++ (t ++ after))).map (fun n => Reading.lexemes [n] .root) <|>
        (directive? (blanks ++ (t ++ after))).map (Reading.lexemes · .root) <|>
        word? before (blanks ++ (t ++ after))).getD (.lexemes [1] .root) := by
  rw [rootReading, numberLength?_spaced hBlanks ht, attribute?_word hBlanks ht]
  cases declaration? (blanks ++ (t ++ after)) <;> rfl

theorem rootReading_begins (before : Option Char) (hBlanks : blanks.allBlank) (ht : IsName t)
    (hAfter : BeginsBlank after) :
    Begins blanks t after (rootReading before (blanks ++ (t ++ after))) := by
  rw [rootReading_spaced hBlanks ht]
  cases hLine : (if isLineStart before then declaration? (blanks ++ (t ++ after)) else none) with
  | some r =>
    split at hLine
    · exact begins_of_declaration? hBlanks ht hLine
    · cases hLine
  | none =>
    cases blanks with
    | nil =>
      obtain ⟨r, hWord, hReads⟩ := word?_word before ht hAfter
      have hNone : symbolLength? (t ++ after) = none ∧ directive? (t ++ after) = none := by
        obtain ⟨start, rest, rfl, hStart⟩ := ht.exists_cons
        have hMark := notMem_marks_of_isNameStart hStart
        exact ⟨symbolLength?_cons hMark (isBlank_of_isNamePart (isNamePart_of_isNameStart hStart)),
          directive?_cons hMark⟩
      rw [List.nil_append, hNone.1, hNone.2, hWord]
      exact .word rfl hReads
    | cons c blanks =>
      obtain ⟨n, hPos, hLe, hSymbol⟩ := symbolLength?_blanks hBlanks ht after
      rw [List.cons_append, hSymbol]
      exact .blanks hPos hLe

theorem namespaceNameLength_word (ht : IsName t) (hAfter : BeginsBlank after) :
    namespaceNameLength (t ++ after) = t.length := by
  have hEnd : namespaceNameLength after = 0 := by
    obtain ⟨blank, rest, rfl, hBlank⟩ := hAfter
    have hPoint : beginsWithAny ['.'] (blank :: rest) = false :=
      decide_eq_false (forall_isBlank (p := (· ∉ ['.'])) (by decide) hBlank)
    rw [namespaceNameLength, hPoint, identifierLength?_blank hBlank]
    exact dif_neg (Nat.lt_irrefl _)
  rw [namespaceNameLength, ht.beginsWithAny after (by decide), ht.identifierLength? hAfter]
  simp only [Bool.false_eq_true, if_false, Option.getD_some, List.drop_left, hEnd, Nat.add_zero]
  exact dif_pos (by simp [ht.length_pos])

/-- Blanks are read as such where names are not expected, and a word is read as one everywhere. -/
theorem begins_reading (before : Option Char) (hBlanks : blanks.allBlank) (ht : IsName t)
    (hAfter : BeginsBlank after) (hMode : mode = .root ∨ blanks = []) :
    Begins blanks t after (reading mode before (blanks ++ (t ++ after))) := by
  cases mode with
  | root => exact rootReading_begins before hBlanks ht hAfter
  | typeName =>
    obtain rfl := hMode.resolve_left (by decide)
    rw [List.nil_append, reading, ht.identifierLength? hAfter]
    exact .word rfl .alone
  | namespaceName =>
    obtain rfl := hMode.resolve_left (by decide)
    have hLength := namespaceNameLength_word ht hAfter
    have hParenthesis := ht.beginsWithAny after (c := '(') (by decide)
    rw [List.nil_append, reading, hLength, hParenthesis]
    obtain ⟨start, rest, rfl, -⟩ := ht.exists_cons
    exact .word rfl .alone

end RazorVash.CSharp
