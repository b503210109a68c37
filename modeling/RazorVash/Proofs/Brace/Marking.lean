import Mathlib.Data.List.PeriodicityLemma
import RazorVash.Loop.Conversion
import RazorVash.Proofs.Brace.Balanced

namespace RazorVash.Brace

/-- Marking the end of a block puts the placeholder in the place of the one brace that closes it.
From the beginning of a text it does what replacing the outer closing brace does, and it fails as
the search does. -/
structure MarksOneCloser (text : Text) (start : Nat) (placeholder : Text) : Prop where
  marked : ∀ i, findMatchingClose text start = .ok i →
    markMatchingClose text start placeholder =
      .ok (text.slice 0 i ++ placeholder ++ text.sliceFrom (i + 1), i)
  outer : start = 0 → ∀ i, findMatchingClose text 0 = .ok i → i ≠ text.idxOf '}' →
    ∃ out, markMatchingClose text 0 placeholder = .ok (out, i) ∧
      replaceOuterCloser text placeholder = .ok out
  refused : ∀ e, findMatchingClose text start = .error e →
    markMatchingClose text start placeholder = .error e

/-- The placeholder overlaps itself, shifted by one of its periods, and a closing brace of the text
stands after as much of it as it is shifted by. Put there, it is found too early. -/
def FoundEarly (placeholder text : Text) : Prop :=
  ∃ d < placeholder.length, 0 < d ∧ placeholder.HasPeriod d ∧ '}' ∉ placeholder.take d ∧
    placeholder.take d ++ ['}'] <:+: text

instance (placeholder text : Text) : Decidable (FoundEarly placeholder text) := by
  unfold FoundEarly List.HasPeriod
  infer_instance

variable {text u v w placeholder : Text} {start : Nat}

/-- The text ends in the beginning of the placeholder, as far as it is shifted by one of its
periods. -/
def EndsInPeriod (placeholder text : Text) : Prop :=
  ∃ d < placeholder.length, 0 < d ∧ placeholder.HasPeriod d ∧ placeholder.take d <:+ text

theorem not_foundEarly_of_notMem (h : '}' ∉ text) : ¬ FoundEarly placeholder text := by
  rintro ⟨d, -, -, -, -, hInfix⟩
  exact h (hInfix.subset (by simp))

/-- Each closing brace is looked at with the text since the one before it. -/
theorem foundEarly_append_closer (h : '}' ∉ u) : FoundEarly placeholder (u ++ '}' :: w) ↔
    EndsInPeriod placeholder u ∨ FoundEarly placeholder w := by
  constructor
  · rintro ⟨d, hd, hPos, hPeriod, hNone, before, after, hText⟩
    by_cases hBefore : '}' ∈ before
    · obtain ⟨first, rest, rfl, hFirst⟩ := List.eq_append_cons_of_mem hBefore
      have hSplit : first ++ '}' :: (rest ++ (placeholder.take d ++ ['}']) ++ after) =
          u ++ '}' :: w := by
        rw [← hText]
        simp
      obtain ⟨-, rfl⟩ := Text.append_inj_of_notMem hFirst h hSplit
      exact .inr ⟨d, hd, hPos, hPeriod, hNone, rest, after, rfl⟩
    · have hFirst : '}' ∉ before ++ placeholder.take d := by simp [hBefore, hNone]
      have hSplit : before ++ placeholder.take d ++ '}' :: after = u ++ '}' :: w := by
        rw [← hText]
        simp
      obtain ⟨rfl, -⟩ := Text.append_inj_of_notMem hFirst h hSplit
      exact .inl ⟨d, hd, hPos, hPeriod, List.suffix_append _ _⟩
  · rintro (⟨d, hd, hPos, hPeriod, before, rfl⟩ | ⟨d, hd, hPos, hPeriod, hNone, hInfix⟩)
    · refine ⟨d, hd, hPos, hPeriod, fun hm => h (List.mem_append_right _ hm), before, w, ?_⟩
      simp
    · exact ⟨d, hd, hPos, hPeriod, hNone, hInfix.trans ⟨u ++ ['}'], [], by simp⟩⟩

theorem cut?_placeholder (hNone : ¬ placeholder <:+: u) (h : ¬ EndsInPeriod placeholder u) :
    Text.cut? placeholder (u ++ placeholder ++ w) = some (u, w) := by
  apply Text.cut?_append
  intro a b hab
  refine Nat.le_of_not_lt fun hLess => ?_
  obtain ⟨overlap, rfl⟩ : a <+: u :=
    List.prefix_of_prefix_length_le ⟨placeholder ++ b, rfl⟩
      ⟨placeholder ++ w, by simpa using hab⟩ (Nat.le_of_lt hLess)
  have hFound : placeholder <+: overlap ++ placeholder := by
    have hSame : placeholder ++ b = overlap ++ placeholder ++ w := by simpa using hab.symm
    exact List.prefix_of_prefix_length_le ⟨b, hSame⟩ ⟨w, rfl⟩ (by simp)
  by_cases hShort : overlap.length < placeholder.length
  · have hTake : placeholder.take overlap.length = overlap := by
      rw [List.prefix_iff_eq_take.1 hFound, List.take_take, Nat.min_eq_left (Nat.le_of_lt hShort),
        List.take_left]
    refine h ⟨overlap.length, hShort, ?_, ?_, ?_⟩
    · simpa using hLess
    · rwa [List.HasPeriod, hTake]
    · rw [hTake]
      exact List.suffix_append a overlap
  · have hPrefix : placeholder <+: overlap :=
      List.prefix_of_prefix_length_le hFound ⟨placeholder, rfl⟩ (Nat.le_of_not_lt hShort)
    exact hNone (hPrefix.isInfix.trans (List.suffix_append a overlap).isInfix)

theorem replaceAll_ne_of_endsInPeriod (hp : placeholder ≠ []) (hu : '}' ∉ u)
    (h : EndsInPeriod placeholder u) (v w : Text) :
    Text.replaceAll placeholder ['}'] (u ++ placeholder ++ w) ≠ u ++ v := by
  obtain ⟨d, hd, hPos, ⟨b, hb⟩, a, rfl⟩ := h
  have hText : a ++ placeholder.take d ++ placeholder ++ w = a ++ placeholder ++ (b ++ w) := by
    rw [List.append_assoc a, ← hb]
    simp
  cases hCut : Text.cut? placeholder (a ++ placeholder.take d ++ placeholder ++ w) with
  | none => exact absurd ⟨a, b ++ w, hText.symm⟩ (Text.cut?_eq_none.1 hCut)
  | some s =>
    obtain ⟨before, after⟩ := s
    have hLength := Text.length_le_of_cut? hCut hText
    rw [Text.replaceAll_of_cut? hp hCut]
    intro hSame
    have hBrace : before ++ ['}'] <+: a ++ placeholder.take d := by
      apply List.prefix_of_prefix_length_le ⟨_, hSame⟩ ⟨v, rfl⟩
      simp only [List.length_append, List.length_singleton, List.length_take]
      omega
    exact hu (hBrace.subset (by simp))

/-- The closing braces of a text are put back as they were exactly if no placeholder is found early.
-/
theorem replaceAll_replaceAll_eq_iff (hp : placeholder ≠ []) (hNone : ¬ placeholder <:+: text) :
    Text.replaceAll placeholder ['}'] (Text.replaceAll ['}'] placeholder text) = text ↔
      ¬ FoundEarly placeholder text := by
  induction hn : text.length using Nat.strongRecOn generalizing text with
  | ind n ih =>
    subst hn
    by_cases hCloser : '}' ∈ text
    · obtain ⟨u, w, rfl, hu⟩ := List.eq_append_cons_of_mem hCloser
      have hReplaced : Text.replaceAll ['}'] placeholder (u ++ '}' :: w) =
          u ++ placeholder ++ Text.replaceAll ['}'] placeholder w :=
        Text.replaceAll_of_cut? (List.cons_ne_nil _ _) (Text.cut?_singleton hu)
      rw [hReplaced, foundEarly_append_closer hu]
      by_cases hEarly : EndsInPeriod placeholder u
      · exact iff_of_false (replaceAll_ne_of_endsInPeriod hp hu hEarly _ _)
          (not_not_intro (.inl hEarly))
      · have hBefore : ¬ placeholder <:+: u := fun h => hNone (h.trans ⟨[], '}' :: w, by simp⟩)
        have hRest : ¬ placeholder <:+: w := fun h => hNone (h.trans ⟨u ++ ['}'], [], by simp⟩)
        rw [Text.replaceAll_of_cut? hp (cut?_placeholder hBefore hEarly), or_iff_right hEarly,
          ← ih w.length (by simp; omega) hRest rfl]
        simp
    · have hSingle : Text.replaceAll ['}'] placeholder text = text := by
        apply Text.replaceAll_of_not_isInfix (List.cons_ne_nil _ _)
        exact Text.not_infix_of_notMem (List.mem_singleton_self _) hCloser
      rw [hSingle, Text.replaceAll_of_not_isInfix hp hNone]
      exact iff_of_true rfl (not_foundEarly_of_notMem hCloser)

theorem markMatchingClose_of_closesAt {i : Nat} (hp : placeholder ≠ [])
    (h : ClosesAt text start i) :
    let body := Text.replaceAll placeholder ['}']
      (Text.replaceAll ['}'] placeholder ((text.take i).drop start))
    markMatchingClose text start placeholder =
      .ok (text.take start ++ (body ++ placeholder) ++ text.drop (i + 1),
        (start + body.length : Nat)) := by
  intro body
  have hReplaced : Text.replaceAll ['}'] placeholder ((text.take i).drop start ++ ['}']) =
      Text.replaceAll ['}'] placeholder ((text.take i).drop start) ++ placeholder := by
    simp [Text.replaceAll_singleton]
  rw [markMatchingClose_natCast placeholder h.drop_eq
    (closerOffset_of_closing _ (closing_zero_iff.2 h.balanced)), hReplaced,
    Text.replaceAllButLast_append_self hp, List.length_append]
  have hEnd : ((start : Int) + (body.length + placeholder.length : Nat)) - placeholder.length =
      (start + body.length : Nat) := by omega
  rw [hEnd]

/-- A block is marked as asked for exactly if its body comes back. -/
theorem markMatchingClose_eq_iff {i : Nat} (hp : placeholder ≠ [])
    (hNone : ¬ placeholder <:+: text) (h : ClosesAt text start i) :
    markMatchingClose text start placeholder =
        .ok (text.slice 0 i ++ placeholder ++ text.sliceFrom ((i : Int) + 1), (i : Int)) ↔
      ¬ FoundEarly placeholder ((text.take i).drop start) := by
  have hBody : ¬ placeholder <:+: (text.take i).drop start := fun hp =>
    hNone (hp.trans ((List.drop_suffix _ _).isInfix.trans (List.take_prefix _ _).isInfix))
  have hBefore : text.take i = text.take start ++ (text.take i).drop start := by
    have := List.take_append_drop start (text.take i)
    rw [List.take_take, Nat.min_eq_left h.le] at this
    exact this.symm
  have hAfter : text.sliceFrom ((i : Int) + 1) = text.drop (i + 1) :=
    Text.sliceFrom_natCast text (i + 1)
  have hLength : start + ((text.take i).drop start).length = i := by
    have := h.le
    have := (List.getElem?_eq_some_iff.1 h.closer).1
    simp
    omega
  rw [← replaceAll_replaceAll_eq_iff hp hBody, markMatchingClose_of_closesAt hp h, hAfter,
    Text.slice_zero_natCast]
  -- on both sides the text before the body and after its brace is left alone
  generalize (text.take i).drop start = body at hBefore hLength ⊢
  rw [hBefore]
  constructor
  · intro hSame
    obtain ⟨hText, -⟩ := Prod.mk.inj (Except.ok.inj hSame)
    simpa using hText
  · intro hBack
    rw [hBack, hLength, List.append_assoc (text.take start) body]

theorem marksOneCloser_of_not_foundEarly (hp : placeholder ≠ [])
    (hNone : ¬ placeholder <:+: text)
    (h : ∀ i, ClosesAt text start i → ¬ FoundEarly placeholder ((text.take i).drop start)) :
    MarksOneCloser text start placeholder := by
  have hMarked (i : Int) (hFind : findMatchingClose text start = .ok i) :
      markMatchingClose text start placeholder =
        .ok (text.slice 0 i ++ placeholder ++ text.sliceFrom (i + 1), i) := by
    obtain ⟨n, rfl, hCloses⟩ := findMatchingClose_eq_ok_iff.1 hFind
    exact (markMatchingClose_eq_iff hp hNone hCloses).2 (h n hCloses)
  refine ⟨hMarked, ?_, fun e he => ?_⟩
  · rintro rfl i hFind hFirst
    refine ⟨_, hMarked i hFind, ?_⟩
    rw [replaceOuterCloser, hFind]
    exact if_neg hFirst
  · rw [markMatchingClose, he]
    rfl

/-- A placeholder that does not overlap itself marks every block of every text as asked for. -/
theorem marksOneCloser_of_not_hasPeriod (hp : placeholder ≠ [])
    (h : ∀ d < placeholder.length, 0 < d → ¬ placeholder.HasPeriod d)
    (hNone : ¬ placeholder <:+: text) (start : Nat) : MarksOneCloser text start placeholder :=
  marksOneCloser_of_not_foundEarly hp hNone fun _ _ ⟨d, hd, hPos, hPeriod, _⟩ =>
    h d hd hPos hPeriod

/-- Marking the end of a block changes one brace and nothing else exactly if the placeholder is not
found early in the body of the block. -/
theorem marksOneCloser_iff (hp : placeholder ≠ []) (hNone : ¬ placeholder <:+: text) :
    MarksOneCloser text start placeholder ↔
      ∀ i, ClosesAt text start i → ¬ FoundEarly placeholder ((text.take i).drop start) := by
  constructor
  · intro h i hCloses
    rw [← markMatchingClose_eq_iff hp hNone hCloses]
    exact h.marked i (findMatchingClose_eq_ok_iff.2 ⟨i, rfl, hCloses⟩)
  · exact marksOneCloser_of_not_foundEarly hp hNone

/-- The placeholder overlaps itself, but no brace of the body stands where that matters. -/
theorem marksOneCloser_body_without_overlap :
    let text := "x\x7ba\x7b b \x7d+\x7dy\x7d".toList
    ("++".toList ≠ [] ∧ ¬ "++".toList <:+: text) ∧
      (∀ i, ClosesAt text 2 i → ¬ FoundEarly "++".toList ((text.take i).drop 2)) ∧
      MarksOneCloser text 2 "++".toList := by
  intro text
  have hNone : ¬ "++".toList <:+: text := by decide +kernel
  have hEarly (i : Nat) (h : ClosesAt text 2 i) :
      ¬ FoundEarly "++".toList ((text.take i).drop 2) := by
    have hEnd : findMatchingClose text (2 : Nat) = .ok (9 : Nat) := by decide +kernel
    have hFind := findMatchingClose_eq_ok_iff.2 ⟨i, rfl, h⟩
    obtain rfl : 9 = i := Int.ofNat.inj (Except.ok.inj (hEnd.symm.trans hFind))
    decide +kernel
  exact ⟨⟨by decide, hNone⟩, hEarly, (marksOneCloser_iff (by decide) hNone).2 hEarly⟩

/-- A text that ends in the beginning of the placeholder before a brace. The placeholder is found
there, the end of the text before the brace is lost, and the placeholder's own end stays. -/
theorem not_marksOneCloser_overlap :
    let text := "\x7b++VASH_LOOP_CLOSE\x7d\x7d".toList
    (Loop.closePlaceholder ≠ [] ∧ ¬ Loop.closePlaceholder <:+: text) ∧
      findMatchingClose text (0 : Nat) = .ok 19 ∧
      markMatchingClose text (0 : Nat) Loop.closePlaceholder =
        .ok ("\x7b\x7dVASH_LOOP_CLOSE++++VASH_LOOP_CLOSE++".toList, 19) ∧
      ¬ MarksOneCloser text 0 Loop.closePlaceholder := by
  intro text
  have hFind : findMatchingClose text (0 : Nat) = .ok 19 := by decide +kernel
  have hMark : markMatchingClose text (0 : Nat) Loop.closePlaceholder =
      .ok ("\x7b\x7dVASH_LOOP_CLOSE++++VASH_LOOP_CLOSE++".toList, 19) := by decide +kernel
  refine ⟨⟨by decide, by decide +kernel⟩, hFind, hMark, fun h => ?_⟩
  have hSame := (h.marked 19 hFind).symm.trans hMark
  revert hSame
  decide +kernel

end RazorVash.Brace
