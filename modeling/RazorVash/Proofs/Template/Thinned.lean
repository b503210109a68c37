import Mathlib.Data.List.Forall2
import RazorVash.Proofs.Template.Span

/-!
What the deletion of spans can bring together. All spans begin with the first character of their
opening mark; so whatever the marks are, what is left of a text is the text without some pieces that
begin with one and the same character (`Thinned`). That a piece of text is spelled nowhere in it can be
decided for all of them at once (`spells`).
-/
namespace RazorVash.Template

variable {c d : Char} {text rest out start stop piece more t : Text} {p : Char → Bool}
  {pattern : List (Char → Bool)}

/-- A text without some pieces that begin with one character. -/
inductive Thinned (c : Char) : Text → Text → Prop
  | nil : Thinned c [] []
  | keep {d : Char} {text out : Text} : Thinned c text out → Thinned c (d :: text) (d :: out)
  | drop {text rest out : Text} : rest <:+ text → Thinned c rest out → Thinned c (c :: text) out

theorem Thinned.refl (c : Char) (text : Text) : Thinned c text text := by
  induction text with
  | nil => exact .nil
  | cons d text ih => exact .keep ih

theorem Thinned.append_left (before : Text) (h : Thinned c text out) :
    Thinned c (before ++ text) (before ++ out) := by
  induction before with
  | nil => exact h
  | cons d before ih => exact .keep ih

theorem thinned_deleteSpans (stop text : Text) :
    Thinned c text (deleteSpans (c :: start) stop text) := by
  fun_induction deleteSpans (c :: start) stop text with
  | case1 text h => cases h.1
  | case2 text _ _ => exact .refl c text
  | case3 text _ before inside _ _ => exact .refl c text
  | case4 text _ before inside hStart body rest hStop ih =>
    have hRest : rest <:+ start ++ inside := by
      rw [Text.cut?_eq_some hStop]
      exact ⟨start ++ (body ++ stop), by simp⟩
    rw [Text.cut?_eq_some hStart, List.append_assoc]
    exact .append_left before (.drop hRest ih)

theorem Thinned.eq_of_notMem (h : Thinned c text out) (hc : c ∉ text) : out = text := by
  induction h with
  | nil => rfl
  | keep _ ih => rw [ih fun hm => hc (List.mem_cons_of_mem _ hm)]
  | drop _ _ _ => exact absurd List.mem_cons_self hc

theorem Thinned.sublist (h : Thinned c text out) : List.Sublist out text := by
  induction h with
  | nil => exact .slnil
  | keep _ ih => exact ih.cons_cons _
  | drop hSuffix _ ih => exact (ih.trans hSuffix.sublist).cons _

/-- The first character that is left stood first, or after the first piece. -/
theorem Thinned.of_cons (h : Thinned c text (d :: out)) :
    ∃ rest, Thinned c rest out ∧
      (text = d :: rest ∨ ∃ after, text = c :: after ∧ d :: rest <:+ after) := by
  generalize hOut : d :: out = whole at h
  induction h with
  | nil => cases hOut
  | @keep e text out' hKept _ =>
    obtain ⟨rfl, rfl⟩ := List.cons.inj hOut
    exact ⟨text, hKept, .inl rfl⟩
  | @drop text rest out' hSuffix _ ih =>
    obtain ⟨rest', hRest, h⟩ := ih hOut
    refine ⟨rest', hRest, .inr ⟨text, rfl, ?_⟩⟩
    rcases h with rfl | ⟨after, rfl, hAfter⟩
    · exact hSuffix
    · exact hAfter.trans ((List.suffix_cons c after).trans hSuffix)

theorem Thinned.of_append (h : Thinned c text (piece ++ out)) :
    ∃ rest, rest <:+ text ∧ Thinned c rest out := by
  induction piece generalizing text with
  | nil => exact ⟨text, List.suffix_refl text, h⟩
  | cons d piece ih =>
    obtain ⟨rest, hRest, hText⟩ := h.of_cons
    obtain ⟨rest', hSuffix, h'⟩ := ih hRest
    refine ⟨rest', hSuffix.trans ?_, h'⟩
    rcases hText with rfl | ⟨after, rfl, hAfter⟩
    · exact List.suffix_cons d rest
    · exact (List.suffix_cons d rest).trans (hAfter.trans (List.suffix_cons c after))

def Fits (pattern : List (Char → Bool)) (piece : Text) : Prop :=
  List.Forall₂ (fun p d => p d = true) pattern piece

/-- Whether a pattern can be read from the beginning of a text on, with pieces left out before any of
its characters. -/
def follows (c : Char) : List (Char → Bool) → Text → Bool
  | [], _ => true
  | _ :: _, [] => false
  | p :: pattern, d :: text =>
    (p d && follows c pattern text) ||
      (d == c && text.tails.any fun rest =>
        match rest with
        | [] => false
        | e :: rest => p e && follows c pattern rest)

/-- Whether a pattern can be read somewhere in a text, with pieces left out inside. -/
def spells (c : Char) (pattern : List (Char → Bool)) (text : Text) : Bool :=
  match pattern with
  | [] => true
  | p :: pattern => text.tails.any fun rest =>
    match rest with
    | [] => false
    | d :: rest => p d && follows c pattern rest

theorem follows_of_thinned (h : Thinned c text (piece ++ more)) (hFits : Fits pattern piece) :
    follows c pattern text = true := by
  -- each character is read off what the one before it has left over
  induction pattern generalizing text piece with
  | nil => cases text <;> rfl
  | cons p pattern ih =>
    obtain ⟨d, piece, hd, hPiece', rfl⟩ := List.forall₂_cons_left_iff.1 hFits
    obtain ⟨rest, hRest, rfl | ⟨after, rfl, hAfter⟩⟩ := h.of_cons
    · rw [follows, hd, ih hRest hPiece', Bool.true_and, Bool.true_or]
    · have hSkipped : (after.tails.any fun rest =>
          match rest with
          | [] => false
          | e :: rest => p e && follows c pattern rest) = true := by
        refine List.any_eq_true.2 ⟨d :: rest, (List.mem_tails _ _).2 hAfter, ?_⟩
        simp only [hd, ih hRest hPiece', Bool.true_and]
      rw [follows, hSkipped, beq_self_eq_true, Bool.true_and, Bool.or_true]

theorem spells_of_thinned (h : Thinned c text out) (hPiece : piece <:+: out)
    (hFits : Fits pattern piece) : spells c pattern text = true := by
  cases pattern with
  | nil => rfl
  | cons p pattern =>
    obtain ⟨d, piece, hd, hPiece', rfl⟩ := List.forall₂_cons_left_iff.1 hFits
    obtain ⟨before, after, rfl⟩ := hPiece
    rw [List.append_assoc] at h
    obtain ⟨rest, hSuffix, hRest⟩ := h.of_append
    obtain ⟨rest', hRest', hWhere⟩ := hRest.of_cons
    have hTail : d :: rest' <:+ text := by
      rcases hWhere with rfl | ⟨tail, rfl, hTail⟩
      · exact hSuffix
      · exact hTail.trans ((List.suffix_cons c tail).trans hSuffix)
    refine List.any_eq_true.2 ⟨d :: rest', (List.mem_tails _ _).2 hTail, ?_⟩
    simp only [hd, follows_of_thinned hRest' hPiece', Bool.true_and]

def literally (piece : Text) : List (Char → Bool) := piece.map fun c d => d == c

theorem fits_literally (piece : Text) : Fits (literally piece) piece :=
  List.forall₂_map_left_iff.2 (List.forall₂_same.2 fun c _ => beq_self_eq_true c)

end RazorVash.Template
