import RazorVash.Proofs.Brace.Balanced
import RazorVash.Proofs.Draft.Places

namespace RazorVash.Draft
open Piece Brace

variable {d d₁ d₂ : Draft} {p q : Piece} {pending inner outer : List Piece} {i n : Nat}

theorem at_opener_iff (hNone : ¬ LogicBlock.opener <:+: spell Mark.placeholder d) :
    LogicBlock.opener <+: (spell Mark.written d).drop i ↔ d.At i (.mark .logicOpener) := by
  constructor
  · rintro ⟨v, hv⟩
    have hi : i ≤ (spell Mark.written d).length := by
      refine Nat.le_of_not_lt fun hOut => ?_
      rw [List.drop_of_length_le (Nat.le_of_lt hOut)] at hv
      cases hv
    have hText : spell Mark.written d = (spell Mark.written d).take i ++ '@' :: '{' :: v := by
      rw [← List.take_append_drop i (spell Mark.written d), ← hv, List.take_left' (by simp [hi])]
      rfl
    obtain ⟨d₁, d₂, rfl, h₁, h₂⟩ := exists_of_spell_written_at hText
    have hLength : (spell Mark.written d₁).length = i := by
      rw [h₁, List.length_take, Nat.min_eq_left hi]
    cases d₂ with
    | nil => cases h₂
    | cons p d₂ =>
      cases p with
      | mark m =>
        cases m with
        | logicOpener => exact ⟨d₁, d₂, rfl, hLength⟩
        | logicCloser => cases (List.cons.inj h₂).1
        | loopCloser => cases (List.cons.inj h₂).1
      | char c =>
        -- two characters would spell the opener among the placeholders too
        obtain ⟨rfl, hBrace⟩ := List.cons.inj h₂
        obtain ⟨d₂, rfl, -⟩ := exists_of_spell_written_brace (s := []) hBrace (by simp) (by simp)
          (by simp)
        exact absurd ⟨spell Mark.placeholder d₁, spell Mark.placeholder d₂, by
          simp [LogicBlock.opener]⟩ hNone
  · rintro ⟨d₁, d₂, rfl, rfl⟩
    exact ⟨spell Mark.written d₂, by rw [spell_append, List.drop_left, spell_mark]; rfl⟩

theorem braces_of_opener (h : p.closing? = some q) :
    braces (spellPiece Mark.written p) = ['{'] := by
  rcases closing?_eq_some h with ⟨rfl, -⟩ | ⟨rfl, -⟩ <;> rfl

theorem braces_of_closer (h : p.isCloser) : braces (spellPiece Mark.written p) = ['}'] := by
  rw [written_of_isCloser h]
  rfl

theorem braces_of_other (ho : p.closing? = none) (hc : p.isCloser = false) :
    braces (spellPiece Mark.written p) = [] := by
  obtain ⟨c, rfl, hOpen, hClose⟩ := exists_char_of_other ho hc
  exact braces_cons_other hOpen hClose

/-- What pairs up, but for the ends of the blocks in `inner`, leaves the blocks around it open. -/
theorem pendingAfter_of_closing (h : Closing inner.length (braces (spell Mark.written d))) :
    pendingAfter (inner ++ outer) d = outer := by
  induction d generalizing inner with
  | nil =>
    cases inner with
    | nil => rfl
    | cons q inner => cases h
  | cons p d ih =>
    rw [spell_cons, braces_append] at h
    rw [pendingAfter]
    cases hp : p.closing? with
    | some q =>
      rw [braces_of_opener hp] at h
      have hOpen : Closing (q :: inner).length (braces (spell Mark.written d)) :=
        closing_cons_opener.1 h
      exact ih hOpen
    | none =>
      cases hc : p.isCloser with
      | true =>
        rw [braces_of_closer hc] at h
        cases inner with
        | nil => cases h
        | cons q inner => exact ih (closing_succ_closer.1 h)
      | false =>
        rw [braces_of_other hp hc] at h
        exact ih h

/-- What is open after a draft has been opened in it, at the last place that leaves it open, or was
open before it. -/
theorem exists_of_pendingAfter (h : pendingAfter pending d = q :: outer) :
    (∃ d₁ p d₂, d = d₁ ++ p :: d₂ ∧ p.closing? = some q ∧
      Closing 0 (braces (spell Mark.written d₂))) ∨
    ∃ inner, pending = inner ++ q :: outer ∧
      Closing inner.length (braces (spell Mark.written d)) := by
  induction d generalizing pending with
  | nil => exact .inr ⟨[], h, .nil⟩
  | cons p d ih =>
    rw [pendingAfter] at h
    rw [spell_cons, braces_append]
    have hLater {d' : Draft} (hd : ∃ d₁ p d₂, d' = d₁ ++ p :: d₂ ∧ p.closing? = some q ∧
        Closing 0 (braces (spell Mark.written d₂))) : ∃ d₁ p' d₂, p :: d' = d₁ ++ p' :: d₂ ∧
          p'.closing? = some q ∧ Closing 0 (braces (spell Mark.written d₂)) := by
      obtain ⟨d₁, p', d₂, rfl, hd⟩ := hd
      exact ⟨p :: d₁, p', d₂, rfl, hd⟩
    cases hp : p.closing? with
    | some r =>
      rw [hp] at h
      rcases ih h with hd | ⟨inner, hPending, hClosing⟩
      · exact .inl (hLater hd)
      · cases inner with
        | nil =>
          obtain ⟨rfl, -⟩ := List.cons.inj hPending
          exact .inl ⟨[], p, d, rfl, hp, hClosing⟩
        | cons r inner =>
          rw [braces_of_opener hp]
          exact .inr ⟨inner, (List.cons.inj hPending).2, .opener hClosing⟩
    | none =>
      rw [hp] at h
      cases hc : p.isCloser with
      | true =>
        simp only [hc, if_true] at h
        rcases ih h with hd | ⟨inner, hPending, hClosing⟩
        · exact .inl (hLater hd)
        · rw [braces_of_closer hc]
          cases pending with
          | nil => simp at hPending
          | cons r pending =>
            obtain rfl : pending = inner ++ q :: outer := hPending
            exact .inr ⟨r :: inner, rfl, .closer hClosing⟩
      | false =>
        simp only [hc, Bool.false_eq_true, if_false] at h
        rcases ih h with hd | ⟨inner, hPending, hClosing⟩
        · exact .inl (hLater hd)
        · rw [braces_of_other hp hc]
          exact .inr ⟨inner, hPending, hClosing⟩

theorem exists_of_spell_written_closer {u v : Text} (h : spell Mark.written d = u ++ '}' :: v) :
    ∃ d₁ p d₂, d = d₁ ++ p :: d₂ ∧ p.isCloser ∧ spell Mark.written d₁ = u := by
  induction d generalizing u with
  | nil => simp at h
  | cons p d ih =>
    rw [spell_cons] at h
    rcases List.append_eq_append_iff.1 h with ⟨a, rfl, ha⟩ | ⟨a, hp, ha⟩
    · obtain ⟨d₁, p', d₂, rfl, hp', rfl⟩ := ih ha
      exact ⟨p :: d₁, p', d₂, rfl, hp', rfl⟩
    · cases a with
      | nil =>
        obtain ⟨d₁, p', d₂, rfl, hp', hu⟩ := ih (u := []) ha.symm
        exact ⟨p :: d₁, p', d₂, rfl, hp', by rw [spell_cons, hp, hu]; simp⟩
      | cons c a =>
        obtain ⟨rfl, -⟩ := List.cons.inj ha
        have hCloser : p.isCloser := by
          have hMem : '}' ∈ spellPiece Mark.written p := by rw [hp]; simp
          cases p with
          | char c => rw [← List.mem_singleton.1 hMem]; rfl
          | mark m =>
            cases m with
            | logicOpener => exact absurd hMem (by decide)
            | logicCloser => rfl
            | loopCloser => rfl
        rw [written_of_isCloser hCloser] at hp
        obtain rfl : u = [] := by
          have := congrArg List.length hp
          rw [List.length_append, List.length_cons, List.length_cons, List.length_nil] at this
          exact List.length_eq_zero_iff.1 (by omega)
        exact ⟨[], p, d, rfl, hCloser, rfl⟩

/-- The end of a block that has been opened in the draft is the piece that its opener asks for. -/
theorem exists_of_closerOffset_written (hPaired : Paired pending (d₁ ++ p :: d₂))
    (hp : p.closing? = some q) (h : closerOffset 0 (spell Mark.written d₂) = .ok n) :
    ∃ e₁ e₂, d₂ = e₁ ++ q :: e₂ ∧ (spell Mark.written e₁).length = n := by
  obtain ⟨u, v, hText, rfl, hClosing⟩ := closing_of_closerOffset h
  obtain ⟨e₁, r, e₂, rfl, hr, rfl⟩ := exists_of_spell_written_closer hText
  have hBlock := (paired_cons_opener hp).1 (paired_append.1 hPaired).2
  have hEnd := (paired_append.1 hBlock).2
  have hNone : Closing ([] : List Piece).length (braces (spell Mark.written e₁)) := hClosing
  have hPending : pendingAfter (q :: pendingAfter pending d₁) e₁ = q :: pendingAfter pending d₁ :=
    pendingAfter_of_closing hNone
  rw [hPending, paired_cons_closer hr] at hEnd
  obtain rfl : r = q := hEnd.1
  exact ⟨e₁, e₂, rfl, rfl⟩

end RazorVash.Draft
