import RazorVash.Proofs.Draft.Position
import RazorVash.Proofs.LogicBlock.Unclosed

namespace RazorVash.LogicBlock
open Piece Draft

def ClosesBlock (text : Text) (p i : Nat) : Prop :=
  opener <+: text.drop p ∧ Brace.findMatchingClose text (p + opener.length : Nat) = .ok (i : Nat)

instance (text : Text) (p i : Nat) : Decidable (ClosesBlock text p i) := by
  unfold ClosesBlock
  infer_instance

/-- What stands for the character `c` at `i` when each delimiter of a block is its placeholder. -/
def delimiterAt (text : Text) (c : Char) (i : Nat) : Text :=
  if opener <+: text.drop i then Placeholders.standard.opener
  else if 0 < i ∧ opener <+: text.drop (i - 1) then []
  else if ∃ p < text.length, ClosesBlock text p i then Placeholders.standard.closer
  else [c]

def delimited (text : Text) : Text := text.zipIdx.flatMap fun (c, i) => delimiterAt text c i

variable {text : Text} {e : Draft} {p : Piece} {i j : Nat}

theorem ClosesBlock.start_lt {p : Nat} (h : ClosesBlock text p i) : p < text.length := by
  refine Nat.lt_of_not_le fun hOut => ?_
  have := h.1
  rw [List.drop_of_length_le hOut] at this
  exact absurd (List.prefix_nil.1 this) (by decide)

theorem ClosesBlock.start_le {p q : Nat} (hp : ClosesBlock text p i)
    (hq : ClosesBlock text q i) : q ≤ p := by
  have hClosesAt {p : Nat} (h : ClosesBlock text p i) :
      Brace.ClosesAt text (p + opener.length) i := by
    obtain ⟨n, hn, hAt⟩ := Brace.findMatchingClose_eq_ok_iff.1 h.2
    obtain rfl := Int.ofNat_inj.1 hn
    exact hAt
  obtain ⟨v, hv⟩ := hq.1
  have hBrace : text[q + 1]? = some '{' := by
    rw [← List.getElem?_drop, ← hv]
    rfl
  have := (hClosesAt hp).lt_of_opener (n := q + 1) (hClosesAt hq) hBrace
  simp only [opener, List.length_cons, List.length_nil] at this
  omega

theorem ClosesBlock.start_eq {p q : Nat} (hp : ClosesBlock text p i) (hq : ClosesBlock text q i) :
    p = q :=
  Nat.le_antisymm (hq.start_le hp) (hp.start_le hq)

section Protected
variable (h : Protects [] (text.map .char) e)
include h

theorem Protects.opener_iff : opener <+: text.drop i ↔ e.At i (.mark .logicOpener) := by
  have := at_opener_iff (i := i) h.noOpener
  rwa [h.spell_written] at this

theorem Protects.closesBlock_iff :
    (∃ p < text.length, ClosesBlock text p i) ↔ e.At i (.mark .logicCloser) := by
  constructor
  · rintro ⟨p, -, hOpens, hFind⟩
    obtain ⟨d₁, d₂, rfl, hp⟩ := h.opener_iff.1 hOpens
    obtain ⟨n, hn, hi⟩ := Brace.findMatchingClose_eq_ok.1 hFind
    have hBody : text.drop (p + opener.length) = spell Mark.written d₂ := by
      rw [← h.spell_written, spell_append, spell_mark, ← hp, ← List.drop_drop, List.drop_left]
      rfl
    rw [hBody] at hn
    obtain ⟨e₁, e₂, rfl, rfl⟩ := exists_of_closerOffset_written h.paired rfl hn
    refine ⟨d₁ ++ .mark .logicOpener :: e₁, e₂, by simp, ?_⟩
    rw [spell_append, spell_mark, List.length_append, List.length_append, hp]
    have hLength : (Mark.written .logicOpener).length = opener.length := rfl
    omega
  · rintro ⟨d₁, d₂, rfl, rfl⟩
    -- what this mark closes has been opened before it
    have hHead := ((paired_cons_closer rfl).1 (paired_append.1 h.paired).2).1
    cases hPending : pendingAfter [] d₁ with
    | nil => rw [hPending] at hHead; cases hHead
    | cons q outer =>
      obtain rfl : .mark .logicCloser = q := by rwa [hPending] at hHead
      rcases exists_of_pendingAfter hPending with ⟨a, p, b, rfl, hp, hClosing⟩ | ⟨inner, hNil, -⟩
      · obtain rfl : p = .mark .logicOpener := by
          rcases closing?_eq_some hp with ⟨-, hq⟩ | ⟨hp, -⟩
          · cases hq
          · exact hp
        have hText : text = spell Mark.written a ++ opener ++
            (spell Mark.written b ++ '}' :: spell Mark.written d₂) := by
          rw [← h.spell_written]
          simp [Mark.written]
        have hBlock : ClosesBlock text (spell Mark.written a).length
            (spell Mark.written (a ++ .mark .logicOpener :: b)).length := by
          refine ⟨?_, Brace.findMatchingClose_eq_ok.2 ⟨(spell Mark.written b).length, ?_, ?_⟩⟩
          · exact ⟨_, by rw [hText, List.append_assoc, List.drop_left]⟩
          · rw [← List.length_append, hText, List.drop_left]
            exact Brace.closerOffset_of_closing _ hClosing
          · rw [spell_append, spell_mark, List.length_append, List.length_append]
            have hLength : (Mark.written .logicOpener).length = opener.length := rfl
            omega
        exact ⟨_, hBlock.start_lt, hBlock⟩
      · simp at hNil

/-- A piece other than an opener is neither half of one in the template. -/
theorem Protects.delimiterAt_eq {c : Char} (hAt : e.At i p) (hp : p ≠ .mark .logicOpener) :
    delimiterAt text c i =
      if ∃ p < text.length, ClosesBlock text p i then Placeholders.standard.closer else [c] := by
  have hHere : ¬ opener <+: text.drop i := fun hOpens => hp (hAt.eq (h.opener_iff.1 hOpens))
  have hBefore : ¬ (0 < i ∧ opener <+: text.drop (i - 1)) := by
    rintro ⟨hPos, hOpens⟩
    have := (h.opener_iff.1 hOpens).le hAt (Nat.sub_one_lt_of_lt hPos)
    simp only [spellPiece, Mark.written, opener, List.length_cons, List.length_nil] at this
    omega
  rw [delimiterAt, if_neg hHere, if_neg hBefore]

theorem Protects.delimited_eq : delimited text = spell Mark.placeholder e := by
  have hFlat : ((spell Mark.written e).zipIdx 0).flatMap (fun (c, i) => delimiterAt text c i) =
      spell Mark.placeholder e := by
    refine flatMap_zipIdx_of_at fun i p hAt => ?_
    rw [Nat.zero_add]
    cases p with
    | char c =>
      have hNot : ¬ ∃ p < text.length, ClosesBlock text p i := by
        intro hCloses
        cases hAt.eq (h.closesBlock_iff.1 hCloses)
      change delimiterAt text c i ++ [] = [c]
      rw [h.delimiterAt_eq hAt (by simp), if_neg hNot, List.append_nil]
    | mark m =>
      cases m with
      | logicOpener =>
        have hOpens := h.opener_iff.2 hAt
        have hNext : ¬ opener <+: text.drop (i + 1) := by
          intro hSecond
          have := hAt.le (h.opener_iff.1 hSecond) (Nat.lt_succ_self i)
          simp only [spellPiece, Mark.written, opener, List.length_cons, List.length_nil] at this
          omega
        change delimiterAt text '@' i ++ (delimiterAt text '{' (i + 1) ++ []) = _
        rw [delimiterAt, if_pos hOpens, delimiterAt, if_neg hNext, if_pos ⟨Nat.succ_pos i, hOpens⟩]
        rfl
      | logicCloser =>
        change delimiterAt text '}' i ++ [] = _
        rw [h.delimiterAt_eq hAt (by simp), if_pos (h.closesBlock_iff.2 hAt), List.append_nil]
        rfl
      | loopCloser =>
        obtain ⟨d₁, d₂, rfl, -⟩ := hAt
        exact absurd (by simp) h.loopCloser_notMem
  rw [delimited, ← hFlat, h.spell_written]

end Protected

/-- Protecting a template succeeds exactly when the search closes each of its blocks. No two blocks
have one closer, and all delimiters give way to placeholders at once. A template with a block that
is not closed is refused as the search for the end of the first such block is. -/
theorem protect_eq_delimited (text : Text) (hStem : ¬ placeholderStem <:+: text) :
    ((protect .standard text).isOk ↔ AllClosed text) ∧
    (∀ p q i, ClosesBlock text p i → ClosesBlock text q i → p = q) ∧
    (AllClosed text → protect .standard text = .ok (delimited text)) ∧
    ∀ e, protect .standard text = .error e → ∃ p, FirstUnclosed text p ∧
      Brace.findMatchingClose text (p + opener.length : Nat) = .error e ∧
      e.fault ≠ .startOutside := by
  refine ⟨⟨fun hOk => ?_, fun hClosed => ?_⟩, fun p q i => ClosesBlock.start_eq, fun hClosed => ?_,
    fun e he => ?_⟩
  · obtain ⟨guarded, hGuarded⟩ := Outcome.isOk_iff.1 hOk
    exact allClosed_of_protect hStem hGuarded
  · obtain ⟨e, he, -⟩ := exists_protect hStem hClosed
    exact Outcome.isOk_iff.2 ⟨_, he⟩
  · obtain ⟨e, he, h⟩ := exists_protect hStem hClosed
    rw [he, h.delimited_eq]
  · have hNot : ¬ AllClosed text := by
      intro hClosed
      obtain ⟨e', he', -⟩ := exists_protect hStem hClosed
      rw [he] at he'
      cases he'
    obtain ⟨p, hFirst⟩ := exists_firstUnclosed hNot
    obtain ⟨e', he', hFind⟩ := exists_protect_fault hStem hFirst
    obtain rfl := Except.error.inj (he.symm.trans he')
    exact ⟨p, hFirst, hFind, Brace.fault_of_findMatchingClose hFind⟩

theorem protect_eq_delimited_nested_and_open :
    (let text := "\x7d@\x7b if (a) \x7b @\x7bb\x7d@\x7bc\x7d \x7d \x7d+@\x7b\x7d\x7d \x7b".toList
    (¬ placeholderStem <:+: text ∧ AllClosed text) ∧
      protect .standard text = .ok (delimited text)) ∧
    let text := "@\x7b\x7d@\x7b \x7b \x7d @\x7b".toList
    ¬ placeholderStem <:+: text ∧ ∃ p e, FirstUnclosed text p ∧ protect .standard text = .error e ∧
      Brace.findMatchingClose text (p + opener.length : Nat) = .error e := by
  refine ⟨⟨by decide +kernel, ?_⟩, by decide +kernel, ?_⟩
  · exact (protect_eq_delimited _ (by decide +kernel)).2.2.1 (by decide +kernel)
  · obtain ⟨p, hFirst, hFind, -⟩ :=
      (protect_eq_delimited "@\x7b\x7d@\x7b \x7b \x7d @\x7b".toList (by decide +kernel)).2.2.2
        ⟨.unclosed 2, " \x7b \x7d @\x7b".toList⟩ (by decide +kernel)
    exact ⟨p, _, hFirst, by decide +kernel, hFind⟩

end RazorVash.LogicBlock
