import Mathlib.Data.Nat.Find
import RazorVash.Proofs.Draft.Closing
import RazorVash.Proofs.Draft.Opening
import RazorVash.Proofs.LogicBlock.RoundTrip

namespace RazorVash.LogicBlock
open Piece Draft

variable {text before after body rest : Text} {pending : List Piece} {d d₁ d₂ : Draft} {p : Nat}

/-- The opener at `p` has no closing brace that balances it, and each one before it has. -/
structure FirstUnclosed (text : Text) (p : Nat) : Prop where
  opens : opener <+: text.drop p
  unclosed : ¬ (Brace.findMatchingClose text (p + opener.length : Nat)).isOk
  earlier : ∀ q < p, opener <+: text.drop q →
    (Brace.findMatchingClose text (q + opener.length : Nat)).isOk

theorem exists_firstUnclosed (h : ¬ AllClosed text) : ∃ p, FirstUnclosed text p := by
  classical
  have hSome : ∃ p, opener <+: text.drop p ∧
      ¬ (Brace.findMatchingClose text (p + opener.length : Nat)).isOk := by
    refine Classical.byContradiction fun hNone => h fun p _ hOpens => ?_
    exact Classical.byContradiction fun hOk => hNone ⟨p, hOpens, hOk⟩
  refine ⟨Nat.find hSome, (Nat.find_spec hSome).1, (Nat.find_spec hSome).2, ?_⟩
  intro q hq hOpens
  exact Classical.byContradiction fun hOk => Nat.find_min hSome hq ⟨hOpens, hOk⟩

structure Unclosed (before body : Text) : Prop where
  unclosed : ¬ Brace.Closed 0 body
  earlier : ∀ b a, before ++ opener ++ body = b ++ opener ++ a → b.length < before.length →
    Brace.Closed 0 a

theorem FirstUnclosed.exists_unclosed (h : FirstUnclosed text p) :
    ∃ before body, text = before ++ opener ++ body ∧ body = text.drop (p + opener.length) ∧
      Unclosed before body := by
  obtain ⟨body, hBody⟩ := h.opens
  have hText : text = text.take p ++ opener ++ body := by
    rw [List.append_assoc, hBody, List.take_append_drop]
  have hDrop : text.drop (p + opener.length) = body := by
    rw [← List.drop_drop, ← hBody, List.drop_left]
  refine ⟨text.take p, body, hText, hDrop.symm, ?_, ?_⟩
  · rw [← hDrop, ← Brace.isOk_findMatchingClose]
    exact h.unclosed
  · intro b a hSplit hLess
    rw [← hText] at hSplit
    have hOpens : opener <+: text.drop b.length := ⟨a, by simp [hSplit]⟩
    have hOk := h.earlier b.length (by simp at hLess; omega) hOpens
    rw [Brace.isOk_findMatchingClose, hSplit, ← List.length_append, List.drop_left] at hOk
    exact hOk

theorem eq_or_exists_of_opener {b a : Text}
    (h : before ++ opener ++ rest = b ++ opener ++ a) (hLength : before.length ≤ b.length) :
    (b = before ∧ a = rest) ∨ ∃ b', b = before ++ opener ++ b' ∧ rest = b' ++ opener ++ a := by
  rw [List.append_assoc, List.append_assoc] at h
  rcases List.append_eq_append_iff.1 h with ⟨x, rfl, hx⟩ | ⟨x, rfl, hx⟩
  · match x with
    | [] => exact .inl ⟨by simp, (List.append_cancel_left hx).symm⟩
    | [c] => simp [opener] at hx
    | c :: e :: b' =>
      simp only [opener, List.cons_append, List.nil_append, List.cons.injEq] at hx
      obtain ⟨rfl, rfl, rfl⟩ := hx
      exact .inr ⟨b', by simp [opener], by simp [opener]⟩
  · rw [List.length_append] at hLength
    obtain rfl : x = [] := List.length_eq_zero_iff.1 (by omega)
    exact .inl ⟨by simp, List.append_cancel_left hx⟩

/-- The next opener is not the one that is left open, so that one comes in the text after it. -/
theorem Unclosed.later {b : Text} (h : Unclosed before body)
    (hText : before ++ opener ++ body = b ++ opener ++ rest)
    (hFirst : b.length ≤ before.length) (hClosed : Brace.Closed 0 rest) :
    ∃ before', rest = before' ++ opener ++ body ∧ Unclosed before' body := by
  rcases eq_or_exists_of_opener hText.symm hFirst with ⟨-, rfl⟩ | ⟨before', rfl, rfl⟩
  · exact absurd hClosed h.unclosed
  · refine ⟨before', rfl, h.unclosed, fun u v hSplit hLess => ?_⟩
    refine h.earlier (b ++ opener ++ u) v ?_ (by simp only [List.length_append]; omega)
    rw [hText, hSplit]
    simp

theorem exists_of_opener_written (hOpener : .mark .logicOpener ∉ d)
    (h : spell Mark.written d = before ++ opener ++ after) :
    ∃ d₁ d₂, d = d₁ ++ .char '@' :: .char '{' :: d₂ ∧ spell Mark.written d₁ = before ∧
      spell Mark.written d₂ = after := by
  -- openers of blocks do not occur, so their spelling is free
  let f : Mark → Text := fun m => if m = .logicOpener then m.placeholder else m.written
  have hSame {e : Draft} (he : .mark .logicOpener ∉ e) : spell f e = spell Mark.written e := by
    refine spell_congr fun m hm => if_neg ?_
    rintro rfl
    exact he hm
  have hAt (m : Mark) : '@' ∉ f m := by cases m <;> decide
  have hBrace (m : Mark) : ∃ c t, f m = c :: t ∧ c ∉ ['{'] := by
    cases m <;> exact ⟨_, _, rfl, by decide⟩
  have hText : spell f d = before ++ '@' :: (['{'] ++ after) := by
    rw [hSame hOpener, h]
    simp [opener]
  obtain ⟨d₁, d₂, rfl, rfl, rfl⟩ := exists_of_spell_eq_append hAt hBrace hText
  have h₁ : .mark .logicOpener ∉ d₁ := fun hm => hOpener (List.mem_append_left _ hm)
  have h₂ : .mark .logicOpener ∉ d₂ := fun hm => hOpener (by simp [hm])
  exact ⟨d₁, d₂, rfl, (hSame h₁).symm, (hSame h₂).symm⟩

theorem length_le_of_cut?_opener (hOpener : .mark .logicOpener ∉ d)
    (hd : d = d₁ ++ .char '@' :: .char '{' :: d₂)
    (hCut : Text.cut? opener (spell Mark.placeholder d) =
      some (spell Mark.placeholder d₁, spell Mark.placeholder d₂))
    (h : spell Mark.written d = before ++ opener ++ after) :
    (spell Mark.written d₁).length ≤ before.length := by
  obtain ⟨e₁, e₂, he, rfl, -⟩ := exists_of_opener_written hOpener h
  have hText : spell Mark.placeholder d =
      spell Mark.placeholder e₁ ++ opener ++ spell Mark.placeholder e₂ := by
    rw [he]
    simp [opener]
  exact length_spell_le Mark.placeholder_ne_nil (hd.symm.trans he)
    (Text.length_le_of_cut? hCut hText)

/-- The pass stops at the first block that is left open and fails as the search for the end of this
block does. The induction is on the number of blocks allowed, as in `Ready.exists_protectWithin`. -/
theorem Unguarded.exists_protectWithin {limit : Nat} (h : Unguarded pending d)
    (hText : spell Mark.written d = before ++ opener ++ body) (hOpen : Unclosed before body)
    (hLimit : (spell Mark.placeholder d).count '{' ≤ limit) :
    ∃ e, protectWithin .standard limit (spell Mark.placeholder d) = some (.error e) ∧
      Brace.findMatchingClose body (0 : Nat) = .error e := by
  induction limit generalizing d pending before with
  | zero =>
    obtain ⟨d₁, d₂, rfl, -, -⟩ := exists_of_opener_written h.noOpener hText
    simp at hLimit
  | succ limit ih =>
    rcases hCut : Text.cut? opener (spell Mark.placeholder d) with _ | ⟨b, a⟩
    · obtain ⟨d₁, d₂, rfl, -, -⟩ := exists_of_opener_written h.noOpener hText
      refine absurd ⟨spell Mark.placeholder d₁, spell Mark.placeholder d₂, ?_⟩
        (Text.cut?_eq_none.1 hCut)
      simp [opener]
    · obtain ⟨d₁, d₂, rfl, rfl, rfl⟩ := exists_of_cut?_opener hCut
      have hFirst := length_le_of_cut?_opener h.noOpener rfl hCut hText
      have hSplit : before ++ opener ++ body =
          spell Mark.written d₁ ++ opener ++ spell Mark.written d₂ := by
        rw [← hText]
        simp [opener]
      rw [protectWithin, hCut]
      simp only [← Mark.placeholder_logicCloser]
      by_cases hClosed : Brace.Closed 0 (spell Mark.written d₂)
      · obtain ⟨n, hn⟩ := hClosed
        obtain ⟨e₁, e₂, i, rfl, hMark, hNext⟩ := h.exists_marked hn
        obtain ⟨before', hBefore', hOpen'⟩ := hOpen.later hSplit hFirst ⟨n, hn⟩
        have hWritten : spell Mark.written (e₁ ++ .mark .logicCloser :: e₂) =
            before' ++ opener ++ body := by
          rw [← hBefore', spell_written_mark (by decide)]
        obtain ⟨e, he, hFault⟩ := ih hNext hWritten hOpen' (count_marked_le hMark hLimit)
        refine ⟨e, ?_, hFault⟩
        rw [hMark]
        simp only [he]
        rfl
      · -- this is the block: nothing in it is a placeholder
        have hPaired := (paired_append.1 h.paired).2
        rw [paired_cons_other rfl rfl, paired_cons_opener (q := brace) rfl] at hPaired
        have hOuter : Paired ([] ++ brace :: pendingAfter pending d₁) d₂ := hPaired
        have hNoMark := mark_notMem_of_not_closed hOuter (by simp)
          (fun hm => h.noOpener (by simp [hm])) hClosed
        have hPlain : spell Mark.placeholder d₂ = spell Mark.written d₂ :=
          spell_congr fun m hm => absurd hm (hNoMark m)
        rw [← hPlain] at hClosed
        obtain ⟨e, he, hFault⟩ := Brace.exists_of_not_closed (Mark.placeholder .logicCloser) hClosed
        refine ⟨e, by rw [he], ?_⟩
        rw [hPlain] at hFault
        rcases eq_or_exists_of_opener hSplit.symm hFirst with ⟨-, rfl⟩ | ⟨b, rfl, -⟩
        · exact hFault
        · rw [hPlain] at hClosed
          refine absurd (hOpen.earlier _ _ hSplit ?_) hClosed
          simp only [List.length_append, opener, List.length_cons, List.length_nil]
          omega

theorem exists_protect_fault (hStem : ¬ placeholderStem <:+: text) (h : FirstUnclosed text p) :
    ∃ e, protect .standard text = .error e ∧
      Brace.findMatchingClose text (p + opener.length : Nat) = .error e := by
  have hText (f : Mark → Text) : spell f (text.map .char) = text := spell_map_char text
  have hUnguarded : Unguarded [] (text.map .char) :=
    ⟨clean_map_char hStem, paired_map_char text (fun _ h => nomatch h), by simp⟩
  obtain ⟨before, body, hSplit, rfl, hOpen⟩ := h.exists_unclosed
  have hLimit : (spell Mark.placeholder (text.map .char)).count '{' ≤ text.length := by
    rw [hText]
    exact List.count_le_length
  obtain ⟨e, he, hFault⟩ := hUnguarded.exists_protectWithin ((hText _).trans hSplit) hOpen hLimit
  rw [hText] at he
  exact ⟨e, by rw [protect, he]; rfl, Brace.findMatchingClose_eq_error.2 hFault⟩

theorem exists_protect_error (hStem : ¬ placeholderStem <:+: text) (h : FirstUnclosed text p) :
    ∃ e, protect .standard text = .error e ∧ e.source = text.drop (p + opener.length) := by
  obtain ⟨e, he, hFault⟩ := exists_protect_fault hStem h
  exact ⟨e, he, Brace.source_of_findMatchingClose hFault⟩

theorem allClosed_of_protect {guarded : Text} (hStem : ¬ placeholderStem <:+: text)
    (h : protect .standard text = .ok guarded) : AllClosed text := by
  refine Classical.byContradiction fun hNot => ?_
  obtain ⟨p, hFirst⟩ := exists_firstUnclosed hNot
  obtain ⟨e, he, -⟩ := exists_protect_error hStem hFirst
  rw [he] at h
  cases h

end RazorVash.LogicBlock
