import RazorVash.Proofs.Brace.Closer
import RazorVash.Proofs.Draft.Basic

/-!
How the delimiters of a draft go together. Reading a draft from the left keeps the list of the
pieces that have to close what is open, the innermost first; a draft is paired when each closing
piece is the one that its opener asks for. Then a block closes at the same place whether marks are
spelled as written or as placeholders, and turning a closing brace into a mark keeps the pairs.
-/
namespace RazorVash

namespace Piece

def brace : Piece := .char '}'

def closing? : Piece → Option Piece
  | .char c => if c = '{' then some brace else none
  | .mark .logicOpener => some (.mark .logicCloser)
  | .mark _ => none

def isCloser : Piece → Bool
  | .char c => c = '}'
  | .mark .logicOpener => false
  | .mark _ => true

theorem closing?_eq_some {p q : Piece} (h : p.closing? = some q) :
    p = .char '{' ∧ q = brace ∨ p = .mark .logicOpener ∧ q = .mark .logicCloser := by
  cases p with
  | char c =>
    by_cases hc : c = '{'
    · subst hc
      exact .inl ⟨rfl, (Option.some.inj h).symm⟩
    · rw [closing?, if_neg hc] at h
      cases h
  | mark m =>
    cases m with
    | logicOpener => exact .inr ⟨rfl, (Option.some.inj h).symm⟩
    | logicCloser => cases h
    | loopCloser => cases h

theorem isCloser_iff {p : Piece} :
    p.isCloser ↔ p = brace ∨ ∃ m, p = .mark m ∧ m ≠ .logicOpener := by
  cases p with
  | char c => simp [isCloser, brace]
  | mark m => cases m <;> simp [isCloser, brace]

theorem written_of_isCloser {p : Piece} (h : p.isCloser) :
    Draft.spellPiece Mark.written p = ['}'] := by
  rcases isCloser_iff.1 h with rfl | ⟨m, rfl, hm⟩
  · rfl
  · cases m with
    | logicOpener => exact absurd rfl hm
    | logicCloser => rfl
    | loopCloser => rfl

theorem closing?_of_isCloser {p : Piece} (h : p.isCloser) : p.closing? = none := by
  rcases isCloser_iff.1 h with rfl | ⟨m, rfl, hm⟩
  · rfl
  · cases m with
    | logicOpener => exact absurd rfl hm
    | logicCloser => rfl
    | loopCloser => rfl

theorem exists_char_of_other {p : Piece} (ho : p.closing? = none) (hc : p.isCloser = false) :
    ∃ c, p = .char c ∧ c ≠ '{' ∧ c ≠ '}' := by
  cases p with
  | char c => exact ⟨c, rfl, by simpa [closing?] using ho, by simpa [isCloser] using hc⟩
  | mark m =>
    cases m with
    | logicOpener => cases ho
    | logicCloser => cases hc
    | loopCloser => cases hc

end Piece

namespace Draft
open Piece

/-- The pieces that have to close what is open after a draft; `pending` had to before it. A brace
that closes nothing leaves them as they are. -/
def pendingAfter : (pending : List Piece) → Draft → List Piece
  | pending, [] => pending
  | pending, p :: d =>
    match p.closing? with
    | some q => pendingAfter (q :: pending) d
    | none => if p.isCloser then pendingAfter pending.tail d else pendingAfter pending d

/-- Each closing piece is the one that is pending; with nothing pending it is a brace. -/
def Paired : (pending : List Piece) → Draft → Prop
  | _, [] => True
  | pending, p :: d =>
    match p.closing? with
    | some q => Paired (q :: pending) d
    | none =>
      if p.isCloser then p = pending.headD brace ∧ Paired pending.tail d else Paired pending d

variable {pending outer : List Piece} {d d₁ d₂ : Draft} {p q : Piece} {c : Char} {m : Mark}

theorem paired_append : Paired pending (d₁ ++ d₂) ↔
    Paired pending d₁ ∧ Paired (pendingAfter pending d₁) d₂ := by
  induction d₁ generalizing pending with
  | nil => simp [Paired, pendingAfter]
  | cons p d₁ ih =>
    simp only [List.cons_append, Paired, pendingAfter]
    cases p.closing? with
    | some q => exact ih
    | none =>
      by_cases hp : p.isCloser
      · simp only [if_pos hp, ih, and_assoc]
      · simp only [if_neg hp, ih]

theorem paired_cons_opener (h : p.closing? = some q) :
    Paired pending (p :: d) ↔ Paired (q :: pending) d := by
  rw [Paired, h]

theorem paired_cons_other (ho : p.closing? = none) (hc : p.isCloser = false) :
    Paired pending (p :: d) ↔ Paired pending d := by
  rw [Paired, ho]
  simp [hc]

theorem paired_cons_closer (hc : p.isCloser) :
    Paired pending (p :: d) ↔ p = pending.headD brace ∧ Paired pending.tail d := by
  rw [Paired, closing?_of_isCloser hc]
  simp [hc]

theorem paired_map_char (t : Text) (h : ∀ q ∈ pending, q = brace) : Paired pending (t.map .char) := by
  induction t generalizing pending with
  | nil => trivial
  | cons c t ih =>
    rw [List.map_cons]
    by_cases ho : c = '{'
    · subst ho
      rw [paired_cons_opener (q := brace) rfl]
      refine ih fun q hq => ?_
      rcases List.mem_cons.1 hq with rfl | hq
      · rfl
      · exact h q hq
    · by_cases hc : c = '}'
      · subst hc
        rw [paired_cons_closer rfl]
        refine ⟨?_, ih fun q hq => h q (List.mem_of_mem_tail hq)⟩
        cases pending with
        | nil => rfl
        | cons q pending => exact (h q List.mem_cons_self).symm
      · have hOther : (Piece.char c).isCloser = false := by simp [isCloser, hc]
        rw [paired_cons_other (by simp [closing?, ho]) hOther]
        exact ih h

/-- The braces among the pending pieces, which are what is open when marks are placeholders. -/
def openBraces (pending : List Piece) : Nat := pending.count brace

/-- A block, with `inner` open inside it and `outer` around it, ends with the brace between `d₁` and
`d₂`, which may become the mark `m`. -/
structure Closes (m : Mark) (inner outer : List Piece) (d₁ d₂ : Draft) : Prop where
  closer : Brace.closerOffset (openBraces inner) (spell Mark.placeholder (d₁ ++ brace :: d₂)) =
    .ok (spell Mark.placeholder d₁).length
  paired : Paired (inner ++ .mark m :: outer) (d₁ ++ .mark m :: d₂)
  fresh : .mark m ∉ d₁

theorem closes_nil (hm : m ≠ .logicOpener) (h : Paired outer d) : Closes m [] outer [] d where
  closer := Brace.closerOffset_zero_closer
  paired := by
    have hc : (Piece.mark m).isCloser := isCloser_iff.2 (.inr ⟨m, rfl, hm⟩)
    exact (paired_cons_closer hc).2 ⟨rfl, h⟩
  fresh := List.not_mem_nil

theorem Closes.cons {inner inner' : List Piece} (h : Closes m inner' outer d₁ d₂)
    (hClose : ∀ t n, Brace.closerOffset (openBraces inner') t = .ok n →
      Brace.closerOffset (openBraces inner) (spellPiece Mark.placeholder p ++ t) =
        .ok ((spellPiece Mark.placeholder p).length + n))
    (hPaired : ∀ e, Paired (inner' ++ .mark m :: outer) e → Paired (inner ++ .mark m :: outer) (p :: e))
    (hp : p ≠ .mark m) : Closes m inner outer (p :: d₁) d₂ where
  closer := by
    have := hClose _ _ h.closer
    rwa [← List.length_append] at this
  paired := hPaired _ h.paired
  fresh := by
    rw [List.mem_cons]
    exact not_or.2 ⟨hp.symm, h.fresh⟩

theorem closerOffset_placeholder_append {k n : Nat} {t : Text}
    (h : Brace.closerOffset k t = .ok n) :
    Brace.closerOffset k (m.placeholder ++ t) = .ok (m.placeholder.length + n) := by
  have hBraces : '{' ∉ m.placeholder ∧ '}' ∉ m.placeholder := by cases m <;> decide
  exact Brace.closerOffset_append hBraces.1 hBraces.2 h

/-! What one piece does to the scan: an opening piece opens one more block, a closing piece closes
the innermost one, and the placeholder of a mark does neither. -/

theorem closerOffset_placeholder_opener {inner : List Piece} {n : Nat} {t : Text}
    (hp : p.closing? = some q) (h : Brace.closerOffset (openBraces (q :: inner)) t = .ok n) :
    Brace.closerOffset (openBraces inner) (spellPiece Mark.placeholder p ++ t) =
      .ok ((spellPiece Mark.placeholder p).length + n) := by
  rcases closing?_eq_some hp with ⟨rfl, rfl⟩ | ⟨rfl, rfl⟩
  · have hn : openBraces (brace :: inner) = openBraces inner + 1 := List.count_cons_self
    rw [hn] at h
    change Brace.closerOffset _ ('{' :: t) = _
    rw [Brace.closerOffset_cons_opener, h]
    exact congrArg Except.ok (Nat.add_comm n 1)
  · have hn : openBraces (.mark .logicCloser :: inner) = openBraces inner :=
      List.count_cons_of_ne (by decide)
    rw [hn] at h
    exact closerOffset_placeholder_append h

theorem closerOffset_placeholder_closer {inner : List Piece} {n : Nat} {t : Text}
    (hp : p.isCloser) (h : Brace.closerOffset (openBraces inner) t = .ok n) :
    Brace.closerOffset (openBraces (p :: inner)) (spellPiece Mark.placeholder p ++ t) =
      .ok ((spellPiece Mark.placeholder p).length + n) := by
  rcases isCloser_iff.1 hp with rfl | ⟨k, rfl, -⟩
  · have hn : openBraces (brace :: inner) = openBraces inner + 1 := List.count_cons_self
    rw [hn]
    change Brace.closerOffset _ ('}' :: t) = _
    rw [Brace.closerOffset_succ_closer, h]
    exact congrArg Except.ok (Nat.add_comm n 1)
  · have hn : openBraces (.mark k :: inner) = openBraces inner :=
      List.count_cons_of_ne (by simp [brace])
    rw [hn]
    exact closerOffset_placeholder_append h

theorem closerOffset_written_opener {k n : Nat} (hp : p.closing? = some q)
    (h : Brace.closerOffset k (spell Mark.written (p :: d)) = .ok n) :
    ∃ i, Brace.closerOffset (k + 1) (spell Mark.written d) = .ok i ∧
      n = (spellPiece Mark.written p).length + i := by
  rcases closing?_eq_some hp with ⟨rfl, rfl⟩ | ⟨rfl, rfl⟩
  · rw [spell_char, Brace.closerOffset_cons_opener] at h
    obtain ⟨i, hi, rfl⟩ := Outcome.map_eq_ok h
    exact ⟨i, hi, Nat.add_comm i 1⟩
  · rw [spell_mark] at h
    change Brace.closerOffset k ('@' :: '{' :: spell Mark.written d) = _ at h
    rw [Brace.closerOffset_cons_other (by decide) (by decide), Brace.closerOffset_cons_opener] at h
    obtain ⟨j, hj, rfl⟩ := Outcome.map_eq_ok h
    obtain ⟨i, hi, rfl⟩ := Outcome.map_eq_ok hj
    exact ⟨i, hi, Nat.add_comm i 2⟩

theorem closerOffset_written_closer {k n : Nat} (hp : p.isCloser)
    (h : Brace.closerOffset (k + 1) (spell Mark.written (p :: d)) = .ok n) :
    ∃ i, Brace.closerOffset k (spell Mark.written d) = .ok i ∧
      n = (spellPiece Mark.written p).length + i := by
  have hw : spellPiece Mark.written p = ['}'] := written_of_isCloser hp
  have hs : spell Mark.written (p :: d) = '}' :: spell Mark.written d := by
    rw [spell_cons, hw]
    rfl
  rw [hs, Brace.closerOffset_succ_closer] at h
  obtain ⟨i, hi, rfl⟩ := Outcome.map_eq_ok h
  exact ⟨i, hi, by rw [hw]; exact Nat.add_comm i 1⟩

/-- A block of the template ends at the same brace when its marks are placeholders. The induction
is on the draft; `inner` grows with every opening piece and shrinks with every closing one. -/
theorem exists_closes {inner : List Piece} {n : Nat} (hPaired : Paired (inner ++ brace :: outer) d)
    (hClose : Brace.closerOffset inner.length (spell Mark.written d) = .ok n)
    (hm : m ≠ .logicOpener) (hInner : .mark m ∉ inner)
    (hOpener : m = .logicCloser → .mark .logicOpener ∉ d) :
    ∃ d₁ d₂, d = d₁ ++ brace :: d₂ ∧ (spell Mark.written d₁).length = n ∧
      Closes m inner outer d₁ d₂ := by
  induction d generalizing inner n with
  | nil => cases hClose
  | cons p d ih =>
    have hOpener' : m = .logicCloser → .mark .logicOpener ∉ d :=
      fun h hd => hOpener h (List.mem_cons_of_mem _ hd)
    cases hp : p.closing? with
    | some q =>
      -- one more block is open inside, and it is not closed by the mark that is looked for
      have hq : .mark m ∉ q :: inner := by
        rw [List.mem_cons]
        refine not_or.2 ⟨?_, hInner⟩
        rintro rfl
        obtain ⟨rfl, rfl⟩ : p = .mark .logicOpener ∧ m = .logicCloser := by
          simpa [brace] using closing?_eq_some hp
        exact hOpener rfl List.mem_cons_self
      obtain ⟨i, hi, rfl⟩ := closerOffset_written_opener hp hClose
      have hPaired' : Paired (q :: inner ++ brace :: outer) d := (paired_cons_opener hp).1 hPaired
      obtain ⟨d₁, d₂, rfl, rfl, h⟩ := ih hPaired' hi hq hOpener'
      refine ⟨p :: d₁, d₂, rfl, List.length_append, h.cons ?_ ?_ ?_⟩
      · exact fun t n => closerOffset_placeholder_opener hp
      · exact fun e => (paired_cons_opener hp).2
      · rintro rfl
        rcases closing?_eq_some hp with ⟨h₁, -⟩ | ⟨h₁, -⟩
        · cases h₁
        · exact hm (Piece.mark.inj h₁)
    | none =>
      cases hc : p.isCloser with
      | true =>
        obtain ⟨hHead, hTail⟩ := (paired_cons_closer hc).1 hPaired
        cases inner with
        | nil =>
          -- nothing is open inside, so this is the end
          obtain rfl : p = brace := hHead
          rw [List.length_nil, brace, spell_char, Brace.closerOffset_zero_closer] at hClose
          exact ⟨[], d, rfl, Except.ok.inj hClose, closes_nil hm hTail⟩
        | cons q inner =>
          obtain rfl : p = q := hHead
          obtain ⟨i, hi, rfl⟩ := closerOffset_written_closer hc hClose
          have hInner' : .mark m ∉ inner := fun h => hInner (List.mem_cons_of_mem _ h)
          obtain ⟨d₁, d₂, rfl, rfl, h⟩ := ih hTail hi hInner' hOpener'
          refine ⟨p :: d₁, d₂, rfl, List.length_append, h.cons ?_ ?_ ?_⟩
          · exact fun t n => closerOffset_placeholder_closer hc
          · exact fun e he => (paired_cons_closer hc).2 ⟨rfl, he⟩
          · exact fun h => hInner (h ▸ List.mem_cons_self)
      | false =>
        obtain ⟨c, rfl, hOpen, hCloser⟩ := exists_char_of_other hp hc
        rw [spell_char, Brace.closerOffset_cons_other hOpen hCloser] at hClose
        obtain ⟨i, hi, rfl⟩ := Outcome.map_eq_ok hClose
        obtain ⟨d₁, d₂, rfl, rfl, h⟩ := ih ((paired_cons_other hp hc).1 hPaired) hi hInner hOpener'
        refine ⟨.char c :: d₁, d₂, rfl, rfl, h.cons ?_ ?_ ?_⟩
        · intro t n hn
          exact Brace.closerOffset_append (u := [c]) (by simpa using Ne.symm hOpen)
            (by simpa using Ne.symm hCloser) hn
        · exact fun e => (paired_cons_other hp hc).2
        · exact fun h => by cases h

end Draft

end RazorVash
