import Mathlib.Data.List.TakeWhile
import RazorVash.CSharp.Lexeme

namespace RazorVash

/-- Strikes the ranges that lie in each of the others, taken one after the other. -/
def CodePoints.isWithin (ranges : CodePoints) : (others : CodePoints) → Bool
  | [] => ranges.isEmpty
  | (first, last) :: others =>
    CodePoints.isWithin (ranges.dropWhile fun range => first ≤ range.1 && range.2 ≤ last) others

theorem CodePoints.covers_of_isWithin {ranges others : CodePoints} {c : Char}
    (h : ranges.isWithin others) (hc : ranges.covers c) : others.covers c := by
  induction others generalizing ranges with
  | nil =>
    rw [isWithin, List.isEmpty_iff] at h
    rw [h] at hc
    cases hc
  | cons other others ih =>
    obtain ⟨first, last⟩ := other
    rw [isWithin] at h
    obtain ⟨range, hRange, hBetween⟩ := List.any_eq_true.1 hc
    rw [← List.takeWhile_append_dropWhile (l := ranges)
      (p := fun range => first ≤ range.1 && range.2 ≤ last), List.mem_append] at hRange
    rcases hRange with hStruck | hLeft
    · have hWithin := List.mem_takeWhile_imp hStruck
      simp only [covers, List.any_cons, Bool.or_eq_true, Bool.and_eq_true, decide_eq_true_eq]
        at hWithin hBetween ⊢
      omega
    · rw [covers, List.any_cons, Bool.or_eq_true]
      exact .inr (ih h (List.any_eq_true.2 ⟨range, hLeft, hBetween⟩))

namespace CSharp

def isNameStart (c : Char) : Bool := c.isAlpha || c = '_'

def isNamePart (c : Char) : Bool := c.isAlphanum || c = '_'

def IsName : Text → Prop
  | [] => False
  | start :: rest => isNameStart start ∧ ∀ c ∈ rest, isNamePart c

instance (t : Text) : Decidable (IsName t) :=
  match t with
  | [] => inferInstanceAs (Decidable False)
  | start :: rest => decidable_of_iff (isNameStart start && rest.all isNamePart) (by simp [IsName])

variable {p : Char → Bool} {c : Char} {t after : Text}

theorem takeWhile_append (ht : ∀ c ∈ t, p c) (hAfter : ∀ c ∈ after.head?, p c = false) :
    (t ++ after).takeWhile p = t := by
  rw [List.takeWhile_append_of_pos ht]
  cases after with
  | nil => exact List.append_nil t
  | cons c after => rw [List.takeWhile_cons_of_neg (by simp [hAfter c rfl]), List.append_nil]

theorem runLength_append (ht : ∀ c ∈ t, p c) (hAfter : ∀ c ∈ after.head?, p c = false) :
    runLength p (t ++ after) = t.length := by
  rw [runLength, takeWhile_append ht hAfter]

theorem ne_at_of_isIdentifierStart (h : isIdentifierStart c) : c ≠ '@' := by
  rintro rfl
  cases h

theorem isWord_of_isIdentifierStart (h : isIdentifierStart c) : isWord c := by
  unfold isIdentifierStart at h
  unfold isWord
  split at h
  · next hAscii =>
    rw [if_pos hAscii]
    simp only [Char.isAlphanum, Bool.or_eq_true] at h ⊢
    exact h.imp_left .inl
  · next hAscii =>
    rw [if_neg hAscii]
    exact CodePoints.covers_of_isWithin (by decide +kernel) h

/-- An optional `@`, a starting character and continuing characters. -/
def IsIdentifier (t : Text) : Prop :=
  ∃ sigil start rest, t = sigil ++ start :: rest ∧ (sigil = [] ∨ sigil = ['@']) ∧
    isIdentifierStart start ∧ ∀ c ∈ rest, isIdentifierPart c

theorem identifierLength?_append (h : IsIdentifier t)
    (hAfter : ∀ c ∈ after.head?, isIdentifierPart c = false) :
    identifierLength? (t ++ after) = some t.length := by
  obtain ⟨sigil, start, rest, rfl, hSigil, hStart, hRest⟩ := h
  have hLength : identifierLength?.partLength (rest ++ after) = rest.length :=
    runLength_append hRest hAfter
  rcases hSigil with rfl | rfl
  · rw [List.nil_append, List.cons_append, identifierLength?.eq_2, if_pos hStart, hLength,
      List.length_cons, Nat.add_comm]
    exact fun d _ hSigil => absurd hSigil (ne_at_of_isIdentifierStart hStart)
  · simp only [List.cons_append, List.nil_append, identifierLength?, if_pos hStart, hLength,
      List.length_cons]
    rw [Nat.add_comm]

theorem isIdentifier_iff : IsIdentifier t ↔ identifierLength? t = some t.length := by
  constructor
  · intro h
    have hEnd : ∀ c ∈ ([] : Text).head?, isIdentifierPart c = false := by simp
    simpa using identifierLength?_append h hEnd
  · have hPart {rest : Text} (h : identifierLength?.partLength rest = rest.length) :
        ∀ c ∈ rest, isIdentifierPart c :=
      List.takeWhile_eq_self_iff.1 ((List.takeWhile_prefix _).eq_of_length h)
    intro h
    unfold identifierLength? at h
    split at h
    · next start rest =>
      split at h
      · next hStart =>
        simp only [List.length_cons, Option.some.injEq] at h
        exact ⟨['@'], start, rest, rfl, .inr rfl, hStart, hPart (by omega)⟩
      · cases h
    · next start rest _ =>
      split at h
      · next hStart =>
        simp only [List.length_cons, Option.some.injEq] at h
        exact ⟨[], start, rest, rfl, .inl rfl, hStart, hPart (by omega)⟩
      · cases h
    · cases h

theorem isNamePart_of_isNameStart (h : isNameStart c) : isNamePart c := by
  simp only [isNameStart, isNamePart, Char.isAlphanum, Bool.or_eq_true] at h ⊢
  exact h.imp_left .inl

theorem isUpper_iff : c.isUpper ↔ 'A'.val ≤ c.val ∧ c.val ≤ 'Z'.val := decide_eq_true_iff

theorem isLower_iff : c.isLower ↔ 'a'.val ≤ c.val ∧ c.val ≤ 'z'.val :=
  Bool.and_eq_true_iff.trans (and_congr decide_eq_true_iff decide_eq_true_iff)

theorem isAlpha_iff : c.isAlpha ↔ c.isUpper ∨ c.isLower := Bool.or_eq_true_iff

theorem val_lt_of_isNamePart (h : isNamePart c) : c.val < 128 := by
  simp only [isNamePart, Char.isAlphanum, Char.isDigit, Bool.or_eq_true, Bool.and_eq_true,
    decide_eq_true_eq, isAlpha_iff, isUpper_iff, isLower_iff] at h
  rcases h with ((⟨-, hMost⟩ | ⟨-, hMost⟩) | ⟨-, hMost⟩) | rfl
  · exact UInt32.lt_of_le_of_lt hMost (by decide)
  · exact UInt32.lt_of_le_of_lt hMost (by decide)
  · exact UInt32.lt_of_le_of_lt hMost (by decide)
  · decide

theorem isWord_of_isNamePart (h : isNamePart c) : isWord c := by
  rw [isWord, if_pos (val_lt_of_isNamePart h)]
  exact h

theorem isIdentifierPart_of_isNamePart (h : isNamePart c) : isIdentifierPart c := by
  rw [isIdentifierPart, if_pos (val_lt_of_isNamePart h)]
  exact h

theorem isIdentifierStart_of_isNameStart (h : isNameStart c) : isIdentifierStart c := by
  rw [isIdentifierStart, if_pos (val_lt_of_isNamePart (isNamePart_of_isNameStart h))]
  exact h

theorem IsName.exists_cons (h : IsName t) :
    ∃ start rest, t = start :: rest ∧ isNameStart start := by
  cases t with
  | nil => exact h.elim
  | cons start rest => exact ⟨start, rest, rfl, h.1⟩

theorem IsName.isNamePart (h : IsName t) : ∀ c ∈ t, isNamePart c := by
  cases t with
  | nil => exact h.elim
  | cons start rest => exact List.forall_mem_cons.2 ⟨isNamePart_of_isNameStart h.1, h.2⟩

theorem IsName.isIdentifier (h : IsName t) : IsIdentifier t := by
  cases t with
  | nil => exact h.elim
  | cons start rest =>
    exact ⟨[], start, rest, rfl, .inl rfl, isIdentifierStart_of_isNameStart h.1,
      fun c hc => isIdentifierPart_of_isNamePart (h.2 c hc)⟩

theorem IsName.ne_nil (h : IsName t) : t ≠ [] := by
  obtain ⟨start, rest, rfl, -⟩ := h.exists_cons
  exact List.cons_ne_nil start rest

theorem IsName.length_pos (h : IsName t) : 0 < t.length := List.length_pos_iff.2 h.ne_nil

end CSharp

end RazorVash
