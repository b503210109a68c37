import RazorVash.Proofs.Draft.Restoration

namespace RazorVash.LogicBlock
open Piece Draft

/-- From just after each opener a text has a closing brace that balances it. -/
def AllClosed (text : Text) : Prop :=
  ∀ p < text.length, opener <+: text.drop p →
    (Brace.findMatchingClose text (p + opener.length : Nat)).isOk

instance (text : Text) : Decidable (AllClosed text) := by
  unfold AllClosed
  infer_instance

theorem allClosed_iff {text : Text} : AllClosed text ↔
    ∀ before after, text = before ++ opener ++ after → ∃ n, Brace.closerOffset 0 after = .ok n := by
  constructor
  · rintro h before after rfl
    have hOk := h before.length (by simp [opener]) ⟨after, by simp⟩
    obtain ⟨i, hi⟩ := Outcome.isOk_iff.1 hOk
    obtain ⟨n, hn, -⟩ := Brace.findMatchingClose_eq_ok.1 hi
    rw [← List.length_append, List.drop_left] at hn
    exact ⟨n, hn⟩
  · rintro h p - ⟨after, hp⟩
    have hText : text = text.take p ++ opener ++ after := by
      rw [List.append_assoc, hp, List.take_append_drop]
    obtain ⟨n, hn⟩ := h _ _ hText
    have hAfter : text.drop (p + opener.length) = after := by
      rw [← List.drop_drop, ← hp, List.drop_left]
    exact Outcome.isOk_iff.2 ⟨_, Brace.findMatchingClose_eq_ok.2 ⟨n, by rwa [hAfter], rfl⟩⟩

theorem AllClosed.of_append {u v : Text} (h : AllClosed (u ++ v)) : AllClosed v := by
  rw [allClosed_iff] at h ⊢
  rintro before after rfl
  exact h (u ++ before) after (by simp)

variable {pending : List Piece} {d : Draft}

/-- What protecting a draft gives: the same template, paired, with no opener left. -/
structure Protects (pending : List Piece) (d e : Draft) : Prop where
  written : spell Mark.written e = spell Mark.written d
  paired : Paired pending e
  noOpener : ¬ opener <:+: spell Mark.placeholder e
  loopCloser : .mark .loopCloser ∈ e → .mark .loopCloser ∈ d

/-- What the pass relies on in the draft that it goes on with. -/
structure Ready (pending : List Piece) (d : Draft) : Prop where
  clean : Clean d
  paired : Paired pending d
  noOpener : .mark .logicOpener ∉ d
  closed : AllClosed (spell Mark.written d)

theorem exists_of_cut?_opener {before body : Text}
    (h : Text.cut? opener (spell Mark.placeholder d) = some (before, body)) :
    ∃ d₁ d₂, d = d₁ ++ .char '@' :: .char '{' :: d₂ ∧ spell Mark.placeholder d₁ = before ∧
      spell Mark.placeholder d₂ = body := by
  have hAt (m : Mark) : '@' ∉ m.placeholder := by cases m <;> decide
  have hBrace (m : Mark) : ∃ c t, m.placeholder = c :: t ∧ c ∉ ['{'] := ⟨_, _, rfl, by decide⟩
  refine exists_of_spell_eq_append hAt hBrace ?_
  rw [Text.cut?_eq_some h]
  simp [opener]

theorem not_opener_infix_protected {before rest : Text} (hb : ¬ opener <:+: before)
    (hr : ¬ opener <:+: rest) :
    ¬ opener <:+: before ++ Mark.placeholder .logicOpener ++ rest := by
  have hs : Text.Separates (Mark.placeholder .logicOpener) opener :=
    Text.separates_of_apart (Mark.placeholder_ne_nil _) (by decide)
  exact fun h => (hs _ _ h).elim hb hr

/-- A draft with no logic block of its own protected yet. -/
structure Unguarded (pending : List Piece) (d : Draft) : Prop where
  clean : Clean d
  paired : Paired pending d
  noOpener : .mark .logicOpener ∉ d

theorem Unguarded.exists_marked {d₁ d₂ : Draft} {n : Nat}
    (h : Unguarded pending (d₁ ++ .char '@' :: .char '{' :: d₂))
    (hn : Brace.closerOffset 0 (spell Mark.written d₂) = .ok n) :
    ∃ e₁ e₂ i, d₂ = e₁ ++ brace :: e₂ ∧
      Brace.markMatchingClose (spell Mark.placeholder d₂) 0 (Mark.placeholder .logicCloser) =
        .ok (spell Mark.placeholder (e₁ ++ .mark .logicCloser :: e₂), i) ∧
      Unguarded (.mark .logicCloser :: pendingAfter pending d₁)
        (e₁ ++ .mark .logicCloser :: e₂) := by
  have hPaired := (paired_append.1 h.paired).2
  rw [paired_cons_other rfl rfl, paired_cons_opener (q := brace) rfl] at hPaired
  have hOpener : .mark .logicOpener ∉ d₂ := by
    intro hm
    exact h.noOpener (by simp [hm])
  have hOuter : Paired ([] ++ brace :: pendingAfter pending d₁) d₂ := hPaired
  obtain ⟨e₁, e₂, rfl, -, hCloses⟩ := exists_closes (m := .logicCloser) hOuter hn
    (by decide) List.not_mem_nil (fun _ => hOpener)
  have hClean := h.clean.of_append_right.of_cons.of_cons
  obtain ⟨i, hi⟩ := markMatchingClose_spell hClean hCloses
  refine ⟨e₁, e₂, i, rfl, hi, hClean.mark .logicCloser, hCloses.paired, ?_⟩
  intro hm
  exact hOpener (by simpa [brace] using hm)

theorem count_marked_le {d₁ d₂ e : Draft} {limit : Nat} {i : Int}
    (hMark : Brace.markMatchingClose (spell Mark.placeholder d₂) 0 (Mark.placeholder .logicCloser) =
      .ok (spell Mark.placeholder e, i))
    (hLimit : (spell Mark.placeholder (d₁ ++ .char '@' :: .char '{' :: d₂)).count '{' ≤ limit + 1) :
    (spell Mark.placeholder e).count '{' ≤ limit := by
  have := Brace.count_openers_markMatchingClose (by decide) hMark
  rw [spell_append, spell_char, spell_char, List.count_append,
    List.count_cons_of_ne (by decide), List.count_cons_self] at hLimit
  omega

theorem Ready.exists_marked {d₁ d₂ : Draft}
    (h : Ready pending (d₁ ++ .char '@' :: .char '{' :: d₂)) :
    ∃ e₁ e₂ i, d₂ = e₁ ++ brace :: e₂ ∧
      Brace.markMatchingClose (spell Mark.placeholder d₂) 0 (Mark.placeholder .logicCloser) =
        .ok (spell Mark.placeholder (e₁ ++ .mark .logicCloser :: e₂), i) ∧
      Ready (.mark .logicCloser :: pendingAfter pending d₁) (e₁ ++ .mark .logicCloser :: e₂) := by
  obtain ⟨n, hn⟩ := allClosed_iff.1 h.closed (spell Mark.written d₁) (spell Mark.written d₂)
    (by simp [opener])
  have hUnguarded : Unguarded pending _ := ⟨h.clean, h.paired, h.noOpener⟩
  obtain ⟨e₁, e₂, i, rfl, hi, hNext⟩ := hUnguarded.exists_marked hn
  refine ⟨e₁, e₂, i, rfl, hi, hNext.clean, hNext.paired, hNext.noOpener, ?_⟩
  -- the mark is written as the brace that it stands for
  have hTemplate : spell Mark.written (e₁ ++ .mark .logicCloser :: e₂) =
      spell Mark.written (e₁ ++ brace :: e₂) := by
    rw [spell_append, spell_append]
    rfl
  rw [hTemplate]
  apply AllClosed.of_append (u := spell Mark.written d₁ ++ opener)
  simpa [opener] using h.closed

theorem Protects.block {d₁ e₁ e₂ e : Draft} (hBefore : ¬ opener <:+: spell Mark.placeholder d₁)
    (hPaired : Paired pending d₁)
    (h : Protects (.mark .logicCloser :: pendingAfter pending d₁)
      (e₁ ++ .mark .logicCloser :: e₂) e) :
    Protects pending (d₁ ++ .char '@' :: .char '{' :: (e₁ ++ brace :: e₂))
      (d₁ ++ .mark .logicOpener :: e) where
  written := by
    rw [spell_append, spell_mark, h.written]
    simp [brace, Mark.written, opener]
  paired := paired_append.2 ⟨hPaired, (paired_cons_opener rfl).2 h.paired⟩
  noOpener := by
    rw [spell_append, spell_mark, ← List.append_assoc]
    exact not_opener_infix_protected hBefore h.noOpener
  loopCloser := by
    intro hm
    rcases List.mem_append.1 hm with hm | hm
    · exact List.mem_append_left _ hm
    · have hMarked := h.loopCloser (by simpa using hm)
      have hEnds : .mark .loopCloser ∈ e₁ ∨ .mark .loopCloser ∈ e₂ := by simpa using hMarked
      rcases hEnds with h₁ | h₂
      · simp [h₁]
      · simp [h₂]

/-- The pass on a draft. The induction is on the number of blocks allowed; the draft loses an
opening brace with each one. -/
theorem Ready.exists_protectWithin {limit : Nat} (h : Ready pending d)
    (hLimit : (spell Mark.placeholder d).count '{' ≤ limit) :
    ∃ e, protectWithin .standard limit (spell Mark.placeholder d) =
      some (.ok (spell Mark.placeholder e)) ∧ Protects pending d e := by
  induction limit generalizing d pending with
  | zero =>
    have hNone : Text.cut? opener (spell Mark.placeholder d) = none := by
      apply Text.cut?_eq_none.2
      apply Text.not_infix_of_notMem (c := '{') (by decide)
      exact List.count_eq_zero.1 (Nat.le_zero.1 hLimit)
    refine ⟨d, ?_, rfl, h.paired, Text.cut?_eq_none.1 hNone, id⟩
    rw [protectWithin, hNone]
  | succ limit ih =>
    cases hCut : Text.cut? opener (spell Mark.placeholder d) with
    | none =>
      refine ⟨d, ?_, rfl, h.paired, Text.cut?_eq_none.1 hCut, id⟩
      rw [protectWithin, hCut]
    | some s =>
      obtain ⟨before, body⟩ := s
      obtain ⟨d₁, d₂, rfl, rfl, rfl⟩ := exists_of_cut?_opener hCut
      obtain ⟨e₁, e₂, i, hd₂, hMark, hReady⟩ := h.exists_marked
      obtain ⟨e, he, hProtects⟩ := ih hReady (count_marked_le hMark hLimit)
      have hBefore := Text.not_infix_of_cut? (List.cons_ne_nil _ _) hCut
      refine ⟨d₁ ++ .mark .logicOpener :: e, ?_, ?_⟩
      · rw [protectWithin, hCut]
        simp only [← Mark.placeholder_logicCloser, hMark, he, Option.map_some]
        simp [Except.map, Mark.placeholder_logicOpener]
      · rw [hd₂]
        exact hProtects.block hBefore (paired_append.1 h.paired).1

theorem exists_protect {text : Text} (hStem : ¬ placeholderStem <:+: text)
    (hClosed : AllClosed text) :
    ∃ e, protect .standard text = .ok (spell Mark.placeholder e) ∧
      Protects [] (text.map .char) e := by
  have hText (f : Mark → Text) : spell f (text.map .char) = text := spell_map_char text
  have hReady : Ready [] (text.map .char) :=
    ⟨clean_map_char hStem, paired_map_char text (fun _ h => nomatch h), by simp, by rwa [hText]⟩
  have hLimit : (spell Mark.placeholder (text.map .char)).count '{' ≤ text.length := by
    rw [hText]
    exact List.count_le_length
  obtain ⟨e, he, h⟩ := hReady.exists_protectWithin hLimit
  rw [hText] at he
  exact ⟨e, by rw [protect, he]; rfl, h⟩

section Template
variable {text : Text} {e : Draft}

theorem Protects.spell_written (h : Protects [] (text.map .char) e) :
    spell Mark.written e = text := h.written.trans (spell_map_char text)

theorem Protects.clean (hStem : ¬ placeholderStem <:+: text)
    (h : Protects [] (text.map .char) e) : Clean e := by
  apply clean_of_not_infix (f := Mark.written)
  rwa [h.spell_written]

theorem Protects.loopCloser_notMem (h : Protects [] (text.map .char) e) :
    .mark .loopCloser ∉ e := by
  intro hm
  have := h.loopCloser hm
  simp at this

end Template

/-- Protecting and restoring loses nothing, and what is protected has no opener. -/
theorem restore_protect (text : Text) (hStem : ¬ placeholderStem <:+: text)
    (hClosed : AllClosed text) :
    ∃ guarded, protect .standard text = .ok guarded ∧ restore .standard guarded = text ∧
      ¬ opener <:+: guarded := by
  obtain ⟨e, he, h⟩ := exists_protect hStem hClosed
  refine ⟨spell Mark.placeholder e, he, ?_, h.noOpener⟩
  rw [restore_spell rfl rfl legible_placeholder (h.clean hStem)]
  rw [spell_congr (g := Mark.written), h.spell_written]
  intro m hm
  cases m with
  | logicOpener => rfl
  | logicCloser => rfl
  | loopCloser => exact absurd hm h.loopCloser_notMem

theorem restore_protect_nested :
    let text := "+\x7d\x7b@\x7b if (a) \x7b @\x7bb\x7d@\x7bc\x7d \x7d \x7d+@\x7b\x7d\x7d \x7b".toList
    (¬ placeholderStem <:+: text ∧ AllClosed text) ∧
      ∃ guarded, protect .standard text = .ok guarded ∧ restore .standard guarded = text ∧
        ¬ opener <:+: guarded :=
  ⟨by decide +kernel, restore_protect _ (by decide +kernel) (by decide +kernel)⟩

end RazorVash.LogicBlock
