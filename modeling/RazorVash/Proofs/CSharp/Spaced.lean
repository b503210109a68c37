import RazorVash.Proofs.CSharp.Word

/-!
Words with blanks between them, as lexemes. Whatever the words are and whatever follows, each of
them is a lexeme and what is between them is blanks (`lexemesFrom_spaced`). The words may be the
types of what looks like a method, which are read as a text of their own: it has the same words, but
for the last one, which may be the name of the method.
-/
namespace RazorVash.CSharp

def spell (words : List (Text × Text)) : Text :=
  words.flatMap fun (blanks, word) => blanks ++ word

def Spaced (words : List (Text × Text)) : Prop :=
  ∀ w ∈ words, w.1 ≠ [] ∧ w.1.allBlank ∧ IsName w.2

/-- The lexemes begin with those of a phrase, which are its words and blanks. -/
def BeginsWith (lexemes : List Text) (phrase : Text) (words : List Text) : Prop :=
  ∃ pieces tail, lexemes = pieces ++ tail ∧ pieces.flatten = phrase ∧
    pieces.filter (fun piece => !piece.allBlank) = words

variable {t blanks phrase after text : Text} {before : Option Char} {mode next : Mode}
  {lexemes more words : List Text} {spaced : List (Text × Text)} {types name gap : Nat}

theorem Spaced.tail {w : Text × Text} (h : Spaced (w :: spaced)) : Spaced spaced :=
  fun v hv => h v (List.mem_cons_of_mem w hv)

@[simp] theorem spell_nil : spell [] = [] := rfl

@[simp] theorem spell_cons (w : Text × Text) (spaced : List (Text × Text)) :
    spell (w :: spaced) = w.1 ++ (w.2 ++ spell spaced) := List.append_assoc _ _ _

theorem spell_concat (spaced : List (Text × Text)) (w : Text × Text) :
    spell (spaced ++ [w]) = spell spaced ++ (w.1 ++ w.2) := by
  simp [spell]

/-! ### The beginning of a list of lexemes -/

theorem BeginsWith.nil : BeginsWith lexemes [] [] := ⟨[], lexemes, rfl, rfl, rfl⟩

theorem BeginsWith.cons_blanks (hBlanks : blanks.allBlank) (h : BeginsWith lexemes phrase words) :
    BeginsWith (blanks :: lexemes) (blanks ++ phrase) words := by
  obtain ⟨pieces, tail, rfl, rfl, rfl⟩ := h
  exact ⟨blanks :: pieces, tail, rfl, rfl, by simp [hBlanks]⟩

theorem IsName.allBlank (ht : IsName t) : t.allBlank = false := by
  obtain ⟨start, rest, rfl, hStart⟩ := ht.exists_cons
  rw [Text.allBlank, List.all_cons, isBlank_of_isNamePart (isNamePart_of_isNameStart hStart)]
  rfl

theorem BeginsWith.cons_word (ht : IsName t) (h : BeginsWith lexemes phrase words) :
    BeginsWith (t :: lexemes) (t ++ phrase) (t :: words) := by
  obtain ⟨pieces, tail, rfl, rfl, rfl⟩ := h
  exact ⟨t :: pieces, tail, rfl, rfl, by simp [ht.allBlank]⟩

theorem BeginsWith.append (h : BeginsWith lexemes phrase words) :
    BeginsWith (lexemes ++ more) phrase words := by
  obtain ⟨pieces, tail, rfl, hPhrase, hWords⟩ := h
  exact ⟨pieces, tail ++ more, List.append_assoc _ _ _, hPhrase, hWords⟩

/-- Only blanks are left behind the phrase, and a word follows them. -/
theorem BeginsWith.concat (h : BeginsWith lexemes phrase words)
    (hRest : lexemes.flatten = phrase ++ blanks) (hBlanks : blanks.allBlank) (ht : IsName t) :
    BeginsWith (lexemes ++ t :: more) (phrase ++ (blanks ++ t)) (words ++ [t]) := by
  obtain ⟨pieces, tail, rfl, rfl, rfl⟩ := h
  have hTail : tail.flatten = blanks := by
    rw [List.flatten_append] at hRest
    exact List.append_cancel_left hRest
  have hNoWord : tail.filter (fun piece => !piece.allBlank) = [] := by
    refine List.filter_eq_nil_iff.2 fun piece hPiece => ?_
    have hBlank : ∀ c ∈ piece, isBlank c := fun c hc =>
      List.all_eq_true.1 hBlanks c (hTail ▸ List.mem_flatten.2 ⟨piece, hPiece, hc⟩)
    simpa [Text.allBlank] using hBlank
  exact ⟨pieces ++ tail ++ [t], more, by simp, by simp [hTail],
    by simp [hNoWord, ht.allBlank]⟩

/-! ### Lexemes by the reading of their beginning -/

theorem total_map_length (pieces : List Text) :
    total (pieces.map List.length) = pieces.flatten.length := by
  induction pieces with
  | nil => rfl
  | cons piece pieces ih => simp only [total, List.map_cons, List.foldr_cons, List.flatten_cons,
      List.length_append, ← ih]

theorem cutInto_flatten (pieces : List Text) (text : Text) :
    cutInto (pieces.map List.length) (pieces.flatten ++ text) = pieces := by
  induction pieces with
  | nil => rfl
  | cons piece pieces ih =>
    rw [List.map_cons, cutInto, List.flatten_cons, List.append_assoc, List.take_left,
      List.drop_left, ih]

theorem lexemesFrom_lexemes {lengths : List Nat} (hText : text ≠ [])
    (hReading : reading mode before text = .lexemes lengths next) (hTotal : total lengths ≠ 0) :
    lexemesFrom mode before text = cutInto lengths text ++
      lexemesFrom next (text.take (total lengths)).getLast? (text.drop (total lengths)) := by
  obtain ⟨c, rest, rfl⟩ := List.exists_cons_of_ne_nil hText
  rw [lexemesFrom, hReading]
  exact if_neg hTotal

theorem lexemesFrom_pieces (pieces : List Text) (rest : Text)
    (hText : text = pieces.flatten ++ rest) (hPieces : pieces.flatten ≠ [])
    (hReading : reading mode before text = .lexemes (pieces.map List.length) next) :
    lexemesFrom mode before text = pieces ++ lexemesFrom next pieces.flatten.getLast? rest := by
  subst hText
  have hTotal := total_map_length pieces
  rw [lexemesFrom_lexemes (List.append_ne_nil_of_left_ne_nil hPieces rest) hReading
    (by rwa [hTotal, Ne, List.length_eq_zero_iff]), cutInto_flatten, hTotal, List.take_left,
    List.drop_left]

theorem lexemesFrom_declaration {indent : Nat} (hText : types < text.length)
    (hReading : reading mode before text = .declaration indent types name gap) :
    lexemesFrom mode before text =
      text.take indent :: lexemesFrom .root none ((text.drop indent).take types) ++
        cutInto [name, gap, 1] (text.drop (indent + types)) ++
        lexemesFrom .root (some '(') (text.drop (indent + types + name + gap + 1)) := by
  cases text with
  | nil => cases hText
  | cons c rest =>
    rw [lexemesFrom, hReading]
    exact if_pos hText

/-! ### Method heads -/

theorem typeLength?_word (ht : IsName t) (hAfter : BeginsBlank after) :
    typeLength? (t ++ after) = some (t.length + blankLength after) := by
  have hBrackets : (Text.after? ['[', ']'] after).isSome = false := by
    obtain ⟨blank, rest, rfl, hBlank⟩ := hAfter
    have hNe : '[' ≠ blank := by
      rintro rfl
      exact absurd hBlank (by decide)
    rw [Text.after?, if_neg hNe]
    rfl
  rw [typeLength?, ht.identifierLength? hAfter]
  simp only [List.drop_left, hBrackets, Bool.false_eq_true, if_false, Nat.add_zero]
  exact if_neg (blankLength_pos hAfter).ne'

theorem beginsBlank_of_allBlank (h : blanks ≠ []) (hBlanks : blanks.allBlank) :
    BeginsBlank blanks := by
  obtain ⟨blank, rest, rfl⟩ := List.exists_cons_of_ne_nil h
  exact ⟨blank, rest, rfl, List.all_eq_true.1 hBlanks blank List.mem_cons_self⟩

theorem BeginsBlank.append (h : BeginsBlank blanks) : BeginsBlank (blanks ++ after) := by
  obtain ⟨blank, rest, rfl, hBlank⟩ := h
  exact ⟨blank, rest ++ after, rfl, hBlank⟩

theorem beginsBlank_spell (h : Spaced spaced) (hAfter : BeginsBlank after) :
    BeginsBlank (spell spaced ++ after) := by
  cases spaced with
  | nil => exact hAfter
  | cons w spaced =>
    obtain ⟨hw, hBlanks, -⟩ := h w List.mem_cons_self
    rw [spell_cons, List.append_assoc]
    exact (beginsBlank_of_allBlank hw hBlanks).append

theorem methodName?_spaced (ht : IsName t) (hSpaced : Spaced spaced) (hAfter : BeginsBlank after)
    {n : Nat × Nat} (h : methodName? (t ++ (spell spaced ++ after)) = some n) :
    spaced = [] ∧ n.1 = t.length := by
  rw [methodName?, ht.identifierLength? (beginsBlank_spell hSpaced hAfter)] at h
  cases spaced with
  | nil =>
    simp only at h
    split at h
    · obtain rfl := Option.some.inj h
      exact ⟨rfl, rfl⟩
    · cases h
  | cons w spaced =>
    obtain ⟨-, hBlanks, hWord⟩ := hSpaced w List.mem_cons_self
    have hNone : beginsWithAny ['('] (w.2 ++ (spell spaced ++ after)) = false :=
      hWord.beginsWithAny _ (by decide)
    simp only [List.drop_left, drop_word, spell_cons, List.append_assoc,
      blankLength_append hBlanks hWord, hNone] at h
    cases h

/-- A method head is a type, and then a name or another method head. -/
theorem methodHead?_eq_some (h : methodHead? text = some (types, name, gap)) :
    ∃ n, typeLength? text = some n ∧
      (types = n ∧ methodName? (text.drop n) = some (name, gap) ∨
        ∃ others, types = n + others ∧ methodHead? (text.drop n) = some (others, name, gap) ∧
          (text.drop n).length < text.length) := by
  rw [methodHead?] at h
  split at h
  · cases h
  · next n hType =>
    refine ⟨n, hType, ?_⟩
    split at h
    · next hName =>
      cases h
      exact .inl ⟨rfl, hName⟩
    · split at h
      · next hLess =>
        obtain ⟨⟨others, rest⟩, hHead, hEq⟩ := Option.map_eq_some_iff.1 h
        cases hEq
        exact .inr ⟨others, rfl, hHead, hLess⟩
      · cases h

theorem lt_length_of_methodHead? (h : methodHead? text = some (types, name, gap)) :
    types < text.length := by
  induction hLength : text.length using Nat.strong_induction_on generalizing text types with
  | _ length ih =>
  subst hLength
  obtain ⟨n, -, ⟨rfl, hName⟩ | ⟨others, rfl, hHead, hLess⟩⟩ := methodHead?_eq_some h
  · by_contra hEnd
    rw [List.drop_eq_nil_of_le (Nat.le_of_not_lt hEnd)] at hName
    cases hName
  · have := ih _ hLess hHead rfl
    rw [List.length_drop] at this
    omega

/-- The types of a method head are all words but the last one, or they go on behind the words. -/
theorem methodHead?_spaced (ht : IsName t) (hSpaced : Spaced spaced) (hAfter : BeginsBlank after)
    (h : methodHead? (t ++ (spell spaced ++ after)) = some (types, name, gap)) :
    (∃ init last, spaced = init ++ [last] ∧ types = (t ++ (spell init ++ last.1)).length ∧
      name = last.2.length) ∨ (t ++ spell spaced).length < types := by
  induction spaced generalizing t types with
  | nil =>
    obtain ⟨n, hType, hCases⟩ := methodHead?_eq_some h
    rw [spell_nil, List.nil_append, typeLength?_word ht hAfter] at hType
    have hPos := blankLength_pos hAfter
    have hLe : n ≤ types := by
      rcases hCases with ⟨rfl, -⟩ | ⟨others, rfl, -⟩
      · exact Nat.le_refl _
      · exact Nat.le_add_right _ _
    right
    rw [spell_nil, List.append_nil]
    have := Option.some.inj hType
    omega
  | cons w spaced ih =>
    obtain ⟨-, hBlanks, hWord⟩ := hSpaced w List.mem_cons_self
    obtain ⟨n, hType, hCases⟩ := methodHead?_eq_some h
    rw [typeLength?_word ht (beginsBlank_spell hSpaced hAfter), spell_cons, List.append_assoc,
      List.append_assoc, blankLength_append hBlanks hWord] at hType
    obtain rfl := Option.some.inj hType
    rw [spell_cons, List.append_assoc, List.append_assoc, drop_word, List.drop_left] at hCases
    rcases hCases with ⟨rfl, hName⟩ | ⟨others, rfl, hHead, -⟩
    · obtain ⟨rfl, hLength⟩ := methodName?_spaced hWord hSpaced.tail hAfter hName
      exact .inl ⟨[], w, rfl, by simp, hLength⟩
    · rcases ih hWord hSpaced.tail hHead with ⟨init, last, rfl, rfl, hLast⟩ | hBehind
      · exact .inl ⟨w :: init, last, rfl, by simp [Nat.add_assoc], hLast⟩
      · right
        simp only [List.length_append, spell_cons] at hBehind ⊢
        omega

/-! ### Words as lexemes -/

/-- What is read with a word leaves the words behind it, or all of them but the first one, or that
one without its blanks. -/
theorem beginsWith_of_readsWord {r : Reading} (ht : IsName t) (hSpaced : Spaced spaced)
    (hReading : reading mode before (t ++ (spell spaced ++ after)) = r)
    (hReads : ReadsWord t (spell spaced ++ after) r) (hAfter : BeginsBlank after)
    (hWord : ∀ mode before w more, spaced = w :: more →
      BeginsWith (lexemesFrom mode before (w.2 ++ (spell more ++ after))) (w.2 ++ spell more)
        (w.2 :: more.map Prod.snd))
    (hRest : ∀ before more, more <:+ spaced →
      BeginsWith (lexemesFrom .root before (spell more ++ after)) (spell more)
        (more.map Prod.snd)) :
    BeginsWith (lexemesFrom mode before (t ++ (spell spaced ++ after))) (t ++ spell spaced)
      (t :: spaced.map Prod.snd) := by
  have hPos := ht.length_pos
  cases spaced with
  | nil =>
    obtain ⟨lengths, next, hLengths⟩ : ∃ lengths next, r = .lexemes (t.length :: lengths) next := by
      cases hReads <;> exact ⟨_, _, rfl⟩
    rw [hLengths] at hReading
    rw [lexemesFrom_lexemes (List.append_ne_nil_of_left_ne_nil (List.length_pos_iff.1 hPos) _)
      hReading (by simp only [total, List.foldr_cons]; omega), cutInto, List.take_left]
    exact .cons_word ht .nil
  | cons w more =>
    obtain ⟨-, hBlanks, hName⟩ := hSpaced w List.mem_cons_self
    have hMore := beginsBlank_spell hSpaced.tail hAfter
    simp only [spell_cons, List.append_assoc] at hReads hReading ⊢
    cases hReads with
    | alone =>
      rw [lexemesFrom_pieces [t] (w.1 ++ (w.2 ++ (spell more ++ after))) (by simp)
        (by simpa using ht.ne_nil) hReading]
      have hAll := hRest [t].flatten.getLast? _ (List.suffix_refl (w :: more))
      simp only [spell_cons, List.append_assoc] at hAll
      exact .cons_word ht hAll
    | announcing next =>
      rw [blankLength_append hBlanks hName] at hReading
      rw [lexemesFrom_pieces [t, w.1] (w.2 ++ (spell more ++ after)) (by simp)
        (by simp [ht.ne_nil]) hReading]
      exact .cons_word ht (.cons_blanks hBlanks (hWord next _ w more rfl))
    | paired =>
      rw [blankLength_append hBlanks hName, List.drop_left, hName.wordAt hMore] at hReading
      rw [lexemesFrom_pieces [t, w.1, w.2] (spell more ++ after) (by simp)
        (by simp [ht.ne_nil]) hReading]
      exact .cons_word ht (.cons_blanks hBlanks (.cons_word hName
        (hRest _ more (List.suffix_cons w more))))

/-- The types of a method are read on their own and have all the words, or all but the last one,
which is the name of the method. -/
theorem beginsWith_of_methodHead? (hBlanks : blanks.allBlank) (ht : IsName t)
    (hSpaced : Spaced spaced) (hAfter : BeginsBlank after)
    (hReading : reading mode before (blanks ++ (t ++ (spell spaced ++ after))) =
      .declaration blanks.length types name gap)
    (hHead : methodHead? (t ++ (spell spaced ++ after)) = some (types, name, gap))
    (hTypes : ∀ init rest, Spaced init → BeginsBlank rest →
      (t ++ (spell init ++ rest)).length = types →
      BeginsWith (lexemesFrom .root none (t ++ (spell init ++ rest))) (t ++ spell init)
        (t :: init.map Prod.snd)) :
    BeginsWith (lexemesFrom mode before (blanks ++ (t ++ (spell spaced ++ after))))
      (blanks ++ (t ++ spell spaced)) (t :: spaced.map Prod.snd) := by
  have hLess := lt_length_of_methodHead? hHead
  rw [lexemesFrom_declaration (by rw [List.length_append]; omega) hReading, List.take_left,
    List.drop_left, drop_word, List.cons_append, List.cons_append]
  refine .cons_blanks hBlanks ?_
  rw [List.append_assoc]
  -- the types end before the last word, or go on behind all of them
  rcases methodHead?_spaced ht hSpaced hAfter hHead with
    ⟨init, last, rfl, hTypesLength, rfl⟩ | hBehind
  · obtain ⟨hLast, hLastBlanks, hName⟩ := hSpaced last (by simp)
    have hInit : Spaced init := fun w hw => hSpaced w (List.mem_append_left _ hw)
    have hInner := hTypes init last.1 hInit (beginsBlank_of_allBlank hLast hLastBlanks)
      hTypesLength.symm
    have hText : t ++ (spell (init ++ [last]) ++ after) =
        (t ++ (spell init ++ last.1)) ++ (last.2 ++ after) := by
      simp only [spell_concat, List.append_assoc]
    have hPhrase : t ++ spell (init ++ [last]) = (t ++ spell init) ++ (last.1 ++ last.2) := by
      rw [spell_concat, List.append_assoc]
    rw [hText, hTypesLength, List.take_left, List.drop_left, cutInto, List.take_left,
      List.cons_append, hPhrase, List.map_append]
    exact hInner.concat (by rw [flatten_lexemesFrom, List.append_assoc]) hLastBlanks hName
  · obtain ⟨blank, rest, rfl, hBlank⟩ := hAfter
    obtain ⟨k, rfl⟩ := Nat.exists_eq_add_of_lt hBehind
    have hText : (t ++ (spell spaced ++ blank :: rest)).take ((t ++ spell spaced).length + k + 1) =
        t ++ (spell spaced ++ blank :: rest.take k) := by
      rw [← List.append_assoc, Nat.add_assoc, List.take_length_add_append, List.take_succ_cons,
        List.append_assoc]
    rw [hText]
    refine (hTypes spaced _ hSpaced ⟨blank, _, rfl, hBlank⟩ ?_).append
    rw [← hText, List.length_take]
    omega

/-- Every word of a spaced text is a lexeme, with blanks between them, whatever comes behind. -/
theorem lexemesFrom_spaced (hBlanks : blanks.allBlank) (ht : IsName t) (hSpaced : Spaced spaced)
    (hAfter : BeginsBlank after) (hMode : mode = .root ∨ blanks = []) :
    BeginsWith (lexemesFrom mode before (blanks ++ (t ++ (spell spaced ++ after))))
      (blanks ++ (t ++ spell spaced)) (t :: spaced.map Prod.snd) := by
  -- by the length of the text, as the types of a method are lexed as a shorter text of their own
  induction hLength : (blanks ++ (t ++ (spell spaced ++ after))).length
    using Nat.strong_induction_on generalizing mode before blanks t spaced after with
  | _ length ih =>
  subst hLength
  have hPos := ht.length_pos
  have hNil : Text.allBlank [] := rfl
  have hBegins := begins_reading before hBlanks ht (beginsBlank_spell hSpaced hAfter) hMode
  generalize hReading : reading mode before (blanks ++ (t ++ (spell spaced ++ after))) = r
    at hBegins
  cases hBegins with
  | @blanks n hPos hLe =>
    obtain ⟨first, rest, rfl, rfl⟩ : ∃ first rest, blanks = first ++ rest ∧ first.length = n :=
      ⟨_, _, (List.take_append_drop n blanks).symm, List.length_take_of_le hLe⟩
    have hFirst : first ≠ [] := List.length_pos_iff.1 hPos
    simp only [Text.allBlank, List.all_append, Bool.and_eq_true] at hBlanks
    rw [lexemesFrom_pieces [first] (rest ++ (t ++ (spell spaced ++ after))) (by simp)
      (by simpa using hFirst) hReading, List.append_assoc]
    exact .cons_blanks hBlanks.1 (ih _ (by simp; omega) hBlanks.2 ht hSpaced hAfter (.inl rfl) rfl)
  | word hNone hReads =>
    subst hNone
    refine beginsWith_of_readsWord ht hSpaced hReading hReads hAfter
      (fun mode before w more hMore => ?_) fun before more hMore => ?_
    · subst hMore
      obtain ⟨-, -, hWord⟩ := hSpaced w List.mem_cons_self
      exact ih _ (by simp; omega) hNil hWord hSpaced.tail hAfter (.inr rfl) rfl
    · cases more with
      | nil => exact .nil
      | cons w more =>
        obtain ⟨-, hBlanks, hWord⟩ := hSpaced w (hMore.subset List.mem_cons_self)
        have hTail : Spaced more :=
          fun v hv => hSpaced v (hMore.subset (List.mem_cons_of_mem w hv))
        have hLe : (spell (w :: more)).length ≤ (spell spaced).length := by
          obtain ⟨front, rfl⟩ := hMore
          simp [spell]
        have hShorter : (w.1 ++ (w.2 ++ (spell more ++ after))).length <
            (t ++ (spell spaced ++ after)).length := by
          simp only [spell_cons, List.length_append] at hLe ⊢
          omega
        simp only [spell_cons, List.append_assoc, List.map_cons]
        exact ih _ hShorter hBlanks hWord hTail hAfter (.inl rfl) rfl
  | @methodHead types name gap hHead =>
    have hLess := lt_length_of_methodHead? hHead
    refine beginsWith_of_methodHead? hBlanks ht hSpaced hAfter hReading hHead
      fun init rest hInit hRest hTypes => ?_
    exact ih types (by rw [List.length_append]; omega) hNil ht hInit hRest (.inl rfl) hTypes

end RazorVash.CSharp
