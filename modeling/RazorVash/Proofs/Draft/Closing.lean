import RazorVash.Proofs.Draft.Marking

namespace RazorVash

namespace Brace

variable {text u : Text} {k : Nat} {c : Char}

def Closed (depth : Nat) (text : Text) : Prop := ∃ n, closerOffset depth text = .ok n

theorem not_closed_nil : ¬ Closed k [] := fun ⟨_, h⟩ => nomatch h

theorem closed_of_map {e : Except Nat Nat} :
    (∃ n, e.map (· + 1) = .ok n) ↔ ∃ n, e = .ok n := by
  cases e with
  | error m => simp [Except.map]
  | ok m => simp [Except.map]

theorem closed_cons_opener : Closed k ('{' :: text) ↔ Closed (k + 1) text := by
  rw [Closed, closerOffset_cons_opener, closed_of_map, Closed]

theorem closed_zero_closer : Closed 0 ('}' :: text) := ⟨0, closerOffset_zero_closer⟩

theorem closed_succ_closer : Closed (k + 1) ('}' :: text) ↔ Closed k text := by
  rw [Closed, closerOffset_succ_closer, closed_of_map, Closed]

theorem closed_cons_other (ho : c ≠ '{') (hc : c ≠ '}') : Closed k (c :: text) ↔ Closed k text := by
  rw [Closed, closerOffset_cons_other ho hc, closed_of_map, Closed]

theorem closed_append (ho : '{' ∉ u) (hc : '}' ∉ u) : Closed k (u ++ text) ↔ Closed k text := by
  induction u with
  | nil => rfl
  | cons c u ih =>
    rw [List.mem_cons, not_or] at ho hc
    rw [List.cons_append, closed_cons_other (Ne.symm ho.1) (Ne.symm hc.1), ih ho.2 hc.2]

theorem isOk_findMatchingClose {n : Nat} :
    (findMatchingClose text n).isOk ↔ Closed 0 (text.drop n) := by
  rw [Outcome.isOk_iff]
  constructor
  · rintro ⟨i, hi⟩
    obtain ⟨m, hm, -⟩ := findMatchingClose_eq_ok.1 hi
    exact ⟨m, hm⟩
  · rintro ⟨m, hm⟩
    exact ⟨_, findMatchingClose_eq_ok.2 ⟨m, hm, rfl⟩⟩

theorem source_of_findMatchingClose {n : Nat} {e : MalformedBlock}
    (h : findMatchingClose text n = .error e) : e.source = text.drop n := by
  rw [findMatchingClose_natCast] at h
  split at h
  · exact (Except.error.inj h) ▸ rfl
  · split at h
    · cases h
    · exact (Except.error.inj h) ▸ rfl

theorem exists_of_not_closed (placeholder : Text) (h : ¬ Closed 0 text) :
    ∃ e, markMatchingClose text 0 placeholder = .error e ∧
      findMatchingClose text (0 : Nat) = .error e := by
  cases hFind : findMatchingClose text (0 : Nat) with
  | ok i => exact absurd (isOk_findMatchingClose.1 (Outcome.isOk_iff.2 ⟨i, hFind⟩)) h
  | error e => exact ⟨e, markMatchingClose_of_error hFind placeholder, rfl⟩

theorem closed_of_markMatchingClose {placeholder marked : Text} {i : Int}
    (h : markMatchingClose text 0 placeholder = .ok (marked, i)) : Closed 0 text := by
  refine Classical.byContradiction fun hNot => ?_
  obtain ⟨e, he, -⟩ := exists_of_not_closed placeholder hNot
  rw [he] at h
  cases h

end Brace

namespace Draft
open Piece Brace

variable {outer inner : List Piece} {d : Draft} {p q : Piece} {k : Nat} {m : Mark}

theorem closed_placeholder_append {t : Text} : Closed k (m.placeholder ++ t) ↔ Closed k t := by
  have hBraces : '{' ∉ m.placeholder ∧ '}' ∉ m.placeholder := by cases m <;> decide
  exact closed_append hBraces.1 hBraces.2

/-! What one piece means for the block around it, as `closerOffset_placeholder_opener` and the lemmas
after it say for the place of the brace. -/

theorem closed_placeholder_opener (hp : p.closing? = some q) :
    Closed (openBraces inner) (spell Mark.placeholder (p :: d)) ↔
      Closed (openBraces (q :: inner)) (spell Mark.placeholder d) := by
  rcases closing?_eq_some hp with ⟨rfl, rfl⟩ | ⟨rfl, rfl⟩
  · have hn : openBraces (brace :: inner) = openBraces inner + 1 := List.count_cons_self
    rw [hn, spell_char, closed_cons_opener]
  · have hn : openBraces (.mark .logicCloser :: inner) = openBraces inner :=
      List.count_cons_of_ne (by decide)
    rw [hn, spell_mark, closed_placeholder_append]

theorem closed_placeholder_closer (hp : p.isCloser) :
    Closed (openBraces (p :: inner)) (spell Mark.placeholder (p :: d)) ↔
      Closed (openBraces inner) (spell Mark.placeholder d) := by
  rcases isCloser_iff.1 hp with rfl | ⟨m, rfl, -⟩
  · have hn : openBraces (brace :: inner) = openBraces inner + 1 := List.count_cons_self
    rw [hn, brace, spell_char, closed_succ_closer]
  · have hn : openBraces (.mark m :: inner) = openBraces inner :=
      List.count_cons_of_ne (by simp [brace])
    rw [hn, spell_mark, closed_placeholder_append]

theorem closed_written_opener (hp : p.closing? = some q) :
    Closed k (spell Mark.written (p :: d)) ↔ Closed (k + 1) (spell Mark.written d) := by
  rcases closing?_eq_some hp with ⟨rfl, -⟩ | ⟨rfl, -⟩
  · rw [spell_char, closed_cons_opener]
  · change Closed k ('@' :: '{' :: spell Mark.written d) ↔ _
    rw [closed_cons_other (by decide) (by decide), closed_cons_opener]

theorem spell_written_closer (hp : p.isCloser) :
    spell Mark.written (p :: d) = '}' :: spell Mark.written d := by
  rw [spell_cons, written_of_isCloser hp]
  rfl

theorem spell_written_mark {d₁ d₂ : Draft} (hm : m ≠ .logicOpener) :
    spell Mark.written (d₁ ++ .mark m :: d₂) = spell Mark.written (d₁ ++ brace :: d₂) := by
  have hCloser : (Piece.mark m).isCloser := isCloser_iff.2 (.inr ⟨m, rfl, hm⟩)
  rw [spell_append, spell_append, spell_written_closer hCloser, brace, spell_char]

theorem closed_written_closer (hp : p.isCloser) :
    Closed (k + 1) (spell Mark.written (p :: d)) ↔ Closed k (spell Mark.written d) := by
  rw [spell_written_closer hp, closed_succ_closer]

/-- A block that is closed among placeholders is closed in the template. The induction is on the
draft, with `inner` as in `exists_closes`. -/
theorem closed_written_of_placeholder (hPaired : Paired (inner ++ brace :: outer) d)
    (h : Closed (openBraces inner) (spell Mark.placeholder d)) :
    Closed inner.length (spell Mark.written d) := by
  induction d generalizing inner with
  | nil => exact absurd h not_closed_nil
  | cons p d ih =>
    cases hp : p.closing? with
    | some q =>
      rw [closed_written_opener hp]
      have hPaired' : Paired (q :: inner ++ brace :: outer) d := (paired_cons_opener hp).1 hPaired
      exact ih hPaired' ((closed_placeholder_opener hp).1 h)
    | none =>
      cases hc : p.isCloser with
      | true =>
        obtain ⟨hHead, hTail⟩ := (paired_cons_closer hc).1 hPaired
        cases inner with
        | nil =>
          rw [spell_written_closer hc]
          exact closed_zero_closer
        | cons q inner =>
          obtain rfl : p = q := hHead
          rw [List.length_cons, closed_written_closer hc]
          exact ih hTail ((closed_placeholder_closer hc).1 h)
      | false =>
        obtain ⟨c, rfl, hOpen, hCloser⟩ := exists_char_of_other hp hc
        rw [spell_char, closed_cons_other hOpen hCloser] at h ⊢
        exact ih ((paired_cons_other hp hc).1 hPaired) h

/-- With no logic block open, a block that nothing closes has no mark inside: the first one would
close something around the block. -/
theorem mark_notMem_of_not_closed (hPaired : Paired (inner ++ brace :: outer) d)
    (hInner : ∀ q ∈ inner, q = brace) (hOpener : .mark .logicOpener ∉ d)
    (h : ¬ Closed inner.length (spell Mark.written d)) : ∀ m, .mark m ∉ d := by
  induction d generalizing inner with
  | nil => exact fun m hm => nomatch hm
  | cons p d ih =>
    have hOpener' : .mark .logicOpener ∉ d := fun hm => hOpener (List.mem_cons_of_mem _ hm)
    intro m hm
    cases hp : p.closing? with
    | some q =>
      rcases closing?_eq_some hp with ⟨rfl, rfl⟩ | ⟨rfl, -⟩
      · have hInner' : ∀ q ∈ brace :: inner, q = brace := by simpa using hInner
        rw [closed_written_opener hp] at h
        have hMem : .mark m ∈ d := by simpa using hm
        have hPaired' : Paired (brace :: inner ++ brace :: outer) d := (paired_cons_opener hp).1 hPaired
        exact ih hPaired' hInner' hOpener' h m hMem
      · exact hOpener List.mem_cons_self
    | none =>
      cases hc : p.isCloser with
      | true =>
        obtain ⟨hHead, hTail⟩ := (paired_cons_closer hc).1 hPaired
        cases inner with
        | nil =>
          -- nothing is open inside, so this piece closes the block
          rw [spell_written_closer hc] at h
          exact h closed_zero_closer
        | cons q inner =>
          have hq : p = brace := hHead.trans (hInner q List.mem_cons_self)
          rw [List.length_cons, closed_written_closer hc] at h
          have hMem : .mark m ∈ d := by simpa [hq, brace] using hm
          exact ih hTail (fun r hr => hInner r (List.mem_cons_of_mem _ hr)) hOpener' h m hMem
      | false =>
        obtain ⟨c, rfl, hOpen, hCloser⟩ := exists_char_of_other hp hc
        rw [spell_char, closed_cons_other hOpen hCloser] at h
        have hMem : .mark m ∈ d := by simpa using hm
        exact ih ((paired_cons_other hp hc).1 hPaired) hInner hOpener' h m hMem

/-- Marking the end of a block in a text that a draft spells marks a brace of the draft. -/
theorem exists_of_markMatchingClose {marked : Text} {i : Int} (hClean : Clean d)
    (hPaired : Paired (brace :: outer) d) (hm : m ≠ .logicOpener)
    (hOpener : m = .logicCloser → .mark .logicOpener ∉ d)
    (h : markMatchingClose (spell Mark.placeholder d) 0 m.placeholder = .ok (marked, i)) :
    ∃ d₁ d₂, d = d₁ ++ brace :: d₂ ∧ marked = spell Mark.placeholder (d₁ ++ .mark m :: d₂) ∧
      Paired (.mark m :: outer) (d₁ ++ .mark m :: d₂) := by
  have hClosed := closed_of_markMatchingClose h
  have hOuter : Paired ([] ++ brace :: outer) d := hPaired
  obtain ⟨n, hn⟩ := closed_written_of_placeholder hOuter hClosed
  obtain ⟨d₁, d₂, rfl, -, hCloses⟩ := exists_closes hOuter hn hm List.not_mem_nil hOpener
  obtain ⟨j, hj⟩ := markMatchingClose_spell hClean hCloses
  rw [hj] at h
  obtain ⟨rfl, -⟩ := Prod.mk.inj (Except.ok.inj h)
  exact ⟨d₁, d₂, rfl, rfl, hCloses.paired⟩

end Draft

end RazorVash
