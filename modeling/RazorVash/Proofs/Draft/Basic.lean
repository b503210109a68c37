import RazorVash.Loop.Conversion
import RazorVash.Proofs.Text.Substitution

/-!
A template in the middle of its conversion, as characters and marks. A mark stands for a delimiter
that has given way to a placeholder. One draft is spelled in several ways: with the placeholders
(the text that the passes work on), with the delimiters as written (the template) and with the
delimiters of the result. Replacing a placeholder leads from one spelling to another
(`replaceAll_spell`) unless the characters of the draft already spell a placeholder's stem.
-/
namespace RazorVash

inductive Mark
  | logicOpener
  | logicCloser
  | loopCloser
deriving DecidableEq, Repr

inductive Piece
  | char (c : Char)
  | mark (m : Mark)
deriving DecidableEq, Repr

abbrev Draft := List Piece

def placeholderStem : Text := "VASH_LO".toList

theorem placeholderStem_eq_cons : placeholderStem = 'V' :: "ASH_LO".toList := rfl

namespace Mark

def word : Mark → Text
  | logicOpener => "VASH_LOGIC_OPEN".toList
  | logicCloser => "VASH_LOGIC_CLOSE".toList
  | loopCloser => "VASH_LOOP_CLOSE".toList

def placeholder (m : Mark) : Text := '+' :: '+' :: (m.word ++ ['+', '+'])

def written : Mark → Text
  | logicOpener => LogicBlock.opener
  | logicCloser => ['}']
  | loopCloser => ['}']

def converted : Mark → Text
  | logicOpener => LogicBlock.opener
  | logicCloser => ['}']
  | loopCloser => Loop.callClose

theorem placeholder_logicOpener : placeholder logicOpener = LogicBlock.Placeholders.standard.opener :=
  rfl

theorem placeholder_logicCloser : placeholder logicCloser = LogicBlock.Placeholders.standard.closer :=
  rfl

theorem placeholder_loopCloser : placeholder loopCloser = Loop.closePlaceholder := rfl

theorem placeholder_ne_nil (m : Mark) : m.placeholder ≠ [] := List.cons_ne_nil _ _

theorem written_ne_nil (m : Mark) : m.written ≠ [] := by cases m <;> exact List.cons_ne_nil _ _

theorem plus_notMem_word (m : Mark) : '+' ∉ m.word := by cases m <;> decide

theorem stem_isPrefix_word (m : Mark) : placeholderStem <+: m.word := by
  cases m <;> exact ⟨_, rfl⟩

theorem word_injective {m k : Mark} (h : m.word = k.word) : m = k := by
  revert h
  cases m <;> cases k <;> decide

end Mark

namespace Draft

def spellPiece (f : Mark → Text) : Piece → Text
  | .char c => [c]
  | .mark m => f m

def spell (f : Mark → Text) (d : Draft) : Text := d.flatMap (spellPiece f)

variable {f g : Mark → Text} {d d₁ d₂ : Draft} {c : Char} {m : Mark}

@[simp] theorem spell_nil : spell f [] = [] := rfl

@[simp] theorem spell_char : spell f (.char c :: d) = c :: spell f d := rfl

@[simp] theorem spell_mark : spell f (.mark m :: d) = f m ++ spell f d := rfl

theorem spell_cons {p : Piece} : spell f (p :: d) = spellPiece f p ++ spell f d := rfl

@[simp] theorem spell_append : spell f (d₁ ++ d₂) = spell f d₁ ++ spell f d₂ := List.flatMap_append

@[simp] theorem spell_map_char (t : Text) : spell f (t.map .char) = t := by
  induction t with
  | nil => rfl
  | cons c t ih => rw [List.map_cons, spell_char, ih]

theorem infix_spell (h : d₁ <:+: d₂) : spell f d₁ <:+: spell f d₂ := by
  obtain ⟨a, b, rfl⟩ := h
  exact ⟨spell f a, spell f b, by simp⟩

theorem exists_of_spell_eq (hf : ∀ m, c ∉ f m) {u v : Text} (h : spell f d = u ++ c :: v) :
    ∃ d₁ d₂, d = d₁ ++ .char c :: d₂ ∧ spell f d₁ = u ∧ spell f d₂ = v := by
  induction d generalizing u with
  | nil => simp at h
  | cons p d ih =>
    cases p with
    | char e =>
      rw [spell_char] at h
      rcases List.cons_eq_append_iff.1 h with ⟨rfl, hc⟩ | ⟨u, rfl, hu⟩
      · obtain ⟨rfl, rfl⟩ := List.cons.inj hc
        exact ⟨[], d, rfl, rfl, rfl⟩
      · obtain ⟨d₁, d₂, rfl, rfl, rfl⟩ := ih hu
        exact ⟨.char e :: d₁, d₂, rfl, rfl, rfl⟩
    | mark m =>
      rw [spell_mark] at h
      rcases List.append_eq_append_iff.1 h with ⟨a, rfl, ha⟩ | ⟨a, hm, ha⟩
      · obtain ⟨d₁, d₂, rfl, rfl, rfl⟩ := ih ha
        exact ⟨.mark m :: d₁, d₂, rfl, rfl, rfl⟩
      · cases a with
        | nil =>
          obtain ⟨d₁, d₂, rfl, hu, rfl⟩ := ih (u := []) (by simpa using ha.symm)
          exact ⟨.mark m :: d₁, d₂, rfl, by simp [hm, hu], rfl⟩
        | cons e a =>
          obtain ⟨rfl, -⟩ := List.cons.inj ha
          exact absurd (by simp [hm]) (hf m)

/-- A text that begins a spelling, and in which no mark can begin, is made of characters. -/
theorem map_char_isPrefix {s : Text} (hf : ∀ m, ∃ c t, f m = c :: t ∧ c ∉ s) (h : s <+: spell f d) :
    s.map .char <+: d := by
  induction s generalizing d with
  | nil => exact List.nil_prefix
  | cons c s ih =>
    cases d with
    | nil => simp at h
    | cons p d =>
      cases p with
      | char e =>
        obtain ⟨rfl, hs⟩ := List.cons_prefix_cons.1 h
        have := ih (fun m => (hf m).imp fun e => Exists.imp fun t ht =>
          ⟨ht.1, fun he => ht.2 (List.mem_cons_of_mem _ he)⟩) hs
        exact List.cons_prefix_cons.2 ⟨rfl, this⟩
      | mark m =>
        obtain ⟨e, t, he, hn⟩ := hf m
        rw [spell_mark, he] at h
        obtain ⟨rfl, -⟩ := List.cons_prefix_cons.1 h
        exact absurd List.mem_cons_self hn

theorem exists_of_spell_eq_append {s u v : Text} (hc : ∀ m, c ∉ f m)
    (hs : ∀ m, ∃ e t, f m = e :: t ∧ e ∉ s) (h : spell f d = u ++ c :: (s ++ v)) :
    ∃ d₁ d₂, d = d₁ ++ .char c :: (s.map .char ++ d₂) ∧ spell f d₁ = u ∧ spell f d₂ = v := by
  obtain ⟨d₁, d', rfl, rfl, hd'⟩ := exists_of_spell_eq hc h
  obtain ⟨d₂, rfl⟩ := map_char_isPrefix hs ⟨v, hd'.symm⟩
  refine ⟨d₁, d₂, rfl, rfl, ?_⟩
  rw [spell_append, spell_map_char] at hd'
  exact List.append_cancel_left hd'

theorem spell_congr (h : ∀ m, .mark m ∈ d → f m = g m) : spell f d = spell g d := by
  induction d with
  | nil => rfl
  | cons p d ih =>
    have ih := ih fun m hm => h m (List.mem_cons_of_mem _ hm)
    cases p with
    | char c => rw [spell_char, spell_char, ih]
    | mark m => rw [spell_mark, spell_mark, ih, h m List.mem_cons_self]

/-- No run of characters of the draft is the stem. -/
def Clean (d : Draft) : Prop := ¬ placeholderStem.map .char <:+: d

theorem clean_of_not_infix (h : ¬ placeholderStem <:+: spell f d) : Clean d := by
  rintro ⟨d₁, d₂, rfl⟩
  exact h ⟨spell f d₁, spell f d₂, by simp⟩

theorem Clean.of_append_right (h : Clean (d₁ ++ d₂)) : Clean d₂ :=
  fun hs => h (List.infix_append_of_infix_right hs)

theorem Clean.of_append_left (h : Clean (d₁ ++ d₂)) : Clean d₁ :=
  fun hs => h (List.infix_append_of_infix_left hs)

theorem Clean.of_cons {p : Piece} (h : Clean (p :: d)) : Clean d :=
  fun hs => h (List.infix_cons hs)

theorem clean_map_char {t : Text} (h : ¬ placeholderStem <:+: t) : Clean (t.map .char) :=
  clean_of_not_infix (f := Mark.written) (by rwa [spell_map_char])

theorem Clean.append_cons {p : Piece} (hp : p ∉ placeholderStem.map Piece.char) (h₁ : Clean d₁)
    (h₂ : Clean d₂) : Clean (d₁ ++ p :: d₂) := by
  rw [Clean, Text.infix_append_cons hp]
  exact not_or.2 ⟨h₁, h₂⟩

theorem Clean.mark (m : Mark) (h : Clean (d₁ ++ .char c :: d₂)) : Clean (d₁ ++ .mark m :: d₂) :=
  h.of_append_left.append_cons (by simp) h.of_append_right.of_cons

/-- A spelling of a mark that no placeholder can begin in or go on in. -/
def Settled (t : Text) : Prop := t ≠ [] ∧ '+' ∉ t ∧ Text.Apart t placeholderStem

/-- Each mark is spelled as its placeholder or settled. -/
def Legible (f : Mark → Text) : Prop := ∀ m, f m = m.placeholder ∨ Settled (f m)

theorem Legible.head_notMem (hf : Legible f) (m : Mark) :
    ∃ c t, f m = c :: t ∧ c ∉ placeholderStem := by
  rcases hf m with hp | ⟨hn, -, hs⟩
  · exact ⟨_, _, hp, by decide⟩
  · obtain ⟨c, t, ht⟩ := List.exists_cons_of_ne_nil hn
    exact ⟨c, t, ht, hs c (by simp [ht])⟩

theorem not_stem_isPrefix (hf : Legible f) (hd : Clean d) : ¬ placeholderStem <+: spell f d :=
  fun h => hd (map_char_isPrefix hf.head_notMem h).isInfix

theorem not_plus_stem_isPrefix (hf : Legible f) (hd : Clean d) :
    ¬ ('+' :: placeholderStem) <+: spell f d := by
  cases d with
  | nil => simp
  | cons p d =>
    cases p with
    | char c =>
      intro h
      exact not_stem_isPrefix hf hd.of_cons (List.cons_prefix_cons.1 h).2
    | mark m =>
      rw [spell_mark]
      rcases hf m with hp | ⟨hn, hs, -⟩
      · rw [hp]
        rintro h
        have hs := (List.cons_prefix_cons.1 h).2
        rw [placeholderStem_eq_cons] at hs
        exact absurd (List.cons_prefix_cons.1 hs).1 (by decide)
      · obtain ⟨c, t, ht⟩ := List.exists_cons_of_ne_nil hn
        rw [ht] at hs ⊢
        intro h
        rw [← (List.cons_prefix_cons.1 h).1] at hs
        exact hs List.mem_cons_self

theorem replaceAll_placeholder_append {k : Mark} {new t : Text} (hk : k ≠ m)
    (ht : ¬ placeholderStem <+: t) (hp : ¬ ('+' :: placeholderStem) <+: t) :
    Text.replaceAll m.placeholder new (k.placeholder ++ t) =
      k.placeholder ++ Text.replaceAll m.placeholder new t := by
  obtain ⟨v, hv⟩ := m.stem_isPrefix_word
  -- four places begin with a plus sign: two before the word, two after it
  have hWord : ¬ m.placeholder <+: '+' :: '+' :: (k.word ++ ('+' :: '+' :: t)) := by
    rintro ⟨r, hr⟩
    apply hk
    apply Mark.word_injective
    have : m.word ++ '+' :: ('+' :: r) = k.word ++ '+' :: ('+' :: t) := by
      simpa [Mark.placeholder] using hr
    exact (Text.append_inj_of_notMem m.plus_notMem_word k.plus_notMem_word this).1.symm
  have hStem (s : Text) : ¬ m.placeholder <+: '+' :: s ∨ ('+' :: placeholderStem) <+: s := by
    by_cases h : m.placeholder <+: '+' :: s
    · refine .inr (List.IsPrefix.trans ⟨v ++ ['+', '+'], ?_⟩ (List.cons_prefix_cons.1 h).2)
      rw [← hv]
      simp
    · exact .inl h
  have hPlus : ¬ m.placeholder <+: '+' :: (k.word ++ ('+' :: '+' :: t)) := by
    refine (hStem _).resolve_right fun h => ?_
    obtain ⟨w, hw⟩ := k.stem_isPrefix_word
    rw [← hw, placeholderStem_eq_cons] at h
    exact absurd (List.cons_prefix_cons.1 h).1 (by decide)
  have hLast : ¬ m.placeholder <+: '+' :: '+' :: t := by
    refine (hStem _).resolve_right fun h => ht (List.cons_prefix_cons.1 h).2
  have hPlus' : ¬ m.placeholder <+: '+' :: t := (hStem _).resolve_right hp
  have hSplit : k.placeholder ++ t = '+' :: '+' :: (k.word ++ '+' :: '+' :: t) := by
    simp [Mark.placeholder]
  rw [hSplit, Text.replaceAll_cons_of_not_isPrefix hWord, Text.replaceAll_cons_of_not_isPrefix hPlus,
    Mark.placeholder, Text.replaceAll_append_of_head k.plus_notMem_word, ← Mark.placeholder,
    Text.replaceAll_cons_of_not_isPrefix hLast, Text.replaceAll_cons_of_not_isPrefix hPlus']
  simp [Mark.placeholder]

/-- Replacing one placeholder in a spelling gives the spelling that differs at its mark. -/
theorem replaceAll_spell (hf : Legible f) (hm : f m = m.placeholder) (hg : ∀ k ≠ m, g k = f k)
    (hd : Clean d) : Text.replaceAll m.placeholder (g m) (spell f d) = spell g d := by
  induction d with
  | nil => exact Text.replaceAll_nil m.placeholder_ne_nil
  | cons p d ih =>
    have ih := ih hd.of_cons
    have hStem := not_stem_isPrefix hf hd.of_cons
    have hPlus := not_plus_stem_isPrefix hf hd.of_cons
    cases p with
    | char c =>
      rw [spell_char, spell_char, Text.replaceAll_cons_of_not_isPrefix, ih]
      -- a placeholder here would have its stem after one plus sign in the rest
      intro h
      apply hPlus
      refine List.IsPrefix.trans ?_ (List.cons_prefix_cons.1 h).2
      obtain ⟨v, hv⟩ := m.stem_isPrefix_word
      exact ⟨v ++ ['+', '+'], by rw [← hv]; simp⟩
    | mark k =>
      rw [spell_mark, spell_mark]
      by_cases hk : k = m
      · subst hk
        rw [hm, Text.replaceAll_append_self k.placeholder_ne_nil, ih]
      · rw [hg k hk]
        rcases hf k with hp | ⟨-, hs, -⟩
        · rw [hp, replaceAll_placeholder_append hk hStem hPlus, ih]
        · rw [Mark.placeholder, Text.replaceAll_append_of_head, ← Mark.placeholder, ih]
          exact hs

end Draft

end RazorVash
