import RazorVash.Proofs.Text.Infix
import RazorVash.Text.Excerpt
import RazorVash.Text.Quoted

namespace RazorVash.Text

variable {p text : Text}

theorem infix_of_mem_splitOnP {blank : Char → Bool} {w : Text}
    (h : w ∈ List.splitOnP blank text) : w <:+: text := by
  have hHead (t : Text) : ∃ w ws, List.splitOnP blank t = w :: ws ∧ w <+: t := by
    induction t with
    | nil => exact ⟨[], [], rfl, List.nil_prefix⟩
    | cons c t ih =>
      obtain ⟨w, ws, hs, hw⟩ := ih
      rw [List.splitOnP_cons_eq_if_modifyHead, hs]
      by_cases hc : blank c
      · rw [if_pos hc]
        exact ⟨[], _, rfl, List.nil_prefix⟩
      · rw [if_neg hc]
        exact ⟨c :: w, ws, rfl, List.cons_prefix_cons.2 ⟨rfl, hw⟩⟩
  induction text with
  | nil =>
    obtain rfl : w = [] := by simpa using h
    exact List.nil_infix
  | cons c text ih =>
    obtain ⟨v, vs, hs, hv⟩ := hHead text
    rw [List.splitOnP_cons_eq_if_modifyHead] at h
    by_cases hc : blank c
    · rw [if_pos hc] at h
      rcases List.mem_cons.1 h with rfl | h
      · exact List.nil_infix
      · exact List.infix_cons (ih h)
    · rw [if_neg hc, hs, List.modifyHead_cons] at h
      rw [hs] at ih
      rcases List.mem_cons.1 h with rfl | h
      · exact List.IsPrefix.isInfix (List.cons_prefix_cons.2 ⟨rfl, hv⟩)
      · exact List.infix_cons (ih (List.mem_cons_of_mem _ h))

theorem infix_of_mem_words {w : Text} (h : w ∈ text.words) : w <:+: text :=
  infix_of_mem_splitOnP (List.mem_filter.1 h).1

theorem exists_of_infix_join {ws : List Text} (hp : p ≠ []) (hs : ' ' ∉ p)
    (h : p <:+: join [' '] ws) : ∃ w ∈ ws, p <:+: w := by
  induction ws with
  | nil => exact absurd (List.infix_nil.1 h) hp
  | cons w ws ih =>
    cases ws with
    | nil => exact ⟨w, List.mem_cons_self, by simpa [join, List.intercalate] using h⟩
    | cons v vs =>
      have hJoin : join [' '] (w :: v :: vs) = w ++ ' ' :: join [' '] (v :: vs) := by
        simp [join, List.intercalate]
      rw [hJoin, infix_append_cons hs] at h
      rcases h with h | h
      · exact ⟨w, List.mem_cons_self, h⟩
      · obtain ⟨u, hu, hpu⟩ := ih h
        exact ⟨u, List.mem_cons_of_mem _ hu, hpu⟩

theorem infix_of_infix_excerpt (hp : p ≠ []) (hs : ' ' ∉ p) (hd : '.' ∉ p)
    (h : p <:+: text.excerpt) : p <:+: text := by
  have hFlat : p <:+: join [' '] text.words := by
    rw [excerpt, excerptWithin] at h
    split at h
    · exact h
    · have hDots : p <:+: ((join [' '] text.words).slice 0 excerptLength).trimEnd ++
          '.' :: ['.', '.'] := h
      rw [infix_append_cons hd] at hDots
      rcases hDots with hCut | hDots
      · refine hCut.trans ?_
        refine (trimEnd_isPrefix _).isInfix.trans ?_
        rw [slice]
        exact (List.drop_suffix _ _).isInfix.trans (List.take_prefix _ _).isInfix
      · obtain ⟨c, p, rfl⟩ := List.exists_cons_of_ne_nil hp
        have hc := hDots.subset List.mem_cons_self
        obtain rfl : c = '.' := by simpa using hc
        exact absurd List.mem_cons_self hd
  obtain ⟨w, hw, hpw⟩ := exists_of_infix_join hp hs hFlat
  exact hpw.trans (infix_of_mem_words hw)

theorem isAlphanum_of_mem_toDigits {n : Nat} {c : Char} (h : c ∈ Nat.toDigits 16 n) :
    c.isAlphanum := by
  have hDigit : ∀ k < 16, (Nat.digitChar k).isAlphanum := by decide
  induction n using Nat.strongRecOn with
  | ind n ih =>
    by_cases hn : n < 16
    · rw [Nat.toDigits_of_lt_base hn, List.mem_singleton] at h
      exact h ▸ hDigit n hn
    · rw [Nat.toDigits_of_base_le (by decide) (by omega), List.mem_append, List.mem_singleton] at h
      rcases h with h | h
      · exact ih (n / 16) (by omega) h
      · exact h ▸ hDigit (n % 16) (by omega)

theorem isAlphanum_of_mem_hex {width n : Nat} {c : Char} (h : c ∈ hex width n) : c.isAlphanum := by
  rcases List.mem_append.1 h with h | h
  · rw [(List.mem_replicate.1 h).2]
    decide
  · exact isAlphanum_of_mem_toDigits h

theorem exists_of_escapePoint (n : Nat) :
    ∃ t, escapePoint n = '\\' :: t ∧ ∀ c ∈ t, c.isAlphanum := by
  have hHex (l : Char) (hl : l.isAlphanum) (width : Nat) : ∀ c ∈ l :: hex width n, c.isAlphanum := by
    intro c hc
    rcases List.mem_cons.1 hc with rfl | hc
    · exact hl
    · exact isAlphanum_of_mem_hex hc
  unfold escapePoint
  split
  · exact ⟨'x' :: hex 2 n, rfl, hHex 'x' (by decide) 2⟩
  · split
    · exact ⟨'u' :: hex 4 n, rfl, hHex 'u' (by decide) 4⟩
    · exact ⟨'U' :: hex 8 n, rfl, hHex 'U' (by decide) 8⟩

/-- A character is shown as itself, or escaped by a backslash and no sign but a quote or another
backslash. -/
theorem escapeFor_eq (quote c : Char) :
    escapeFor quote c = [c] ∨
      ∃ t, escapeFor quote c = '\\' :: t ∧ ∀ d ∈ t, d = quote ∨ d = '\\' ∨ d.isAlphanum := by
  have hLetter {l : Char} (hl : l.isAlphanum) : ∀ d ∈ [l], d = quote ∨ d = '\\' ∨ d.isAlphanum := by
    intro d hd
    obtain rfl := List.mem_singleton.1 hd
    exact .inr (.inr hl)
  unfold escapeFor
  split
  · next hc =>
    refine .inr ⟨[c], rfl, fun d hd => ?_⟩
    obtain rfl := List.mem_singleton.1 hd
    rcases hc with hc | hc
    · exact .inl hc
    · exact .inr (.inl hc)
  · split
    · exact .inr ⟨['t'], rfl, hLetter (by decide)⟩
    · split
      · exact .inr ⟨['n'], rfl, hLetter (by decide)⟩
      · split
        · exact .inr ⟨['r'], rfl, hLetter (by decide)⟩
        · split
          · exact .inl rfl
          · obtain ⟨t, ht, hc⟩ := exists_of_escapePoint c.toNat
            exact .inr ⟨t, ht, fun d hd => .inr (.inr (hc d hd))⟩

section Escaping
variable {escape : Char → Text} {c : Char}

theorem isPrefix_of_flatMap (he : ∀ d, escape d = [d] ∨ ∃ t, escape d = '\\' :: t)
    (hb : '\\' ∉ p) (h : p <+: text.flatMap escape) : p <+: text := by
  induction p generalizing text with
  | nil => exact List.nil_prefix
  | cons c p ih =>
    have hb' : '\\' ∉ p := fun hm => hb (List.mem_cons_of_mem _ hm)
    cases text with
    | nil => exact h
    | cons d text =>
      rw [List.flatMap_cons] at h
      rcases he d with hd | ⟨t, hd⟩
      · rw [hd] at h
        obtain ⟨rfl, ht⟩ := List.cons_prefix_cons.1 h
        exact List.cons_prefix_cons.2 ⟨rfl, ih hb' ht⟩
      · rw [hd] at h
        obtain ⟨rfl, -⟩ := List.cons_prefix_cons.1 h
        exact absurd List.mem_cons_self hb

/-- An occurrence that begins with a sign that no escape has is one in the text itself. -/
theorem infix_of_infix_flatMap
    (he : ∀ d, escape d = [d] ∨ ∃ t, escape d = '\\' :: t ∧ c ∉ t)
    (hb : '\\' ∉ c :: p) (h : (c :: p) <:+: text.flatMap escape) : (c :: p) <:+: text := by
  have he' (d : Char) : escape d = [d] ∨ ∃ t, escape d = '\\' :: t :=
    (he d).imp_right fun ⟨t, ht, _⟩ => ⟨t, ht⟩
  induction text with
  | nil => exact h
  | cons d text ih =>
    rw [List.flatMap_cons] at h
    rcases he d with hd | ⟨t, hd, hc⟩
    · rw [hd] at h
      rcases List.infix_cons_iff.1 h with hp | hi
      · obtain ⟨rfl, ht⟩ := List.cons_prefix_cons.1 hp
        have hb' : '\\' ∉ p := fun hm => hb (List.mem_cons_of_mem _ hm)
        exact (List.cons_prefix_cons.2 ⟨rfl, isPrefix_of_flatMap he' hb' ht⟩).isInfix
      · exact List.infix_cons (ih hi)
    · -- the occurrence cannot begin in an escape
      have hc' : c ∉ escape d := by
        rw [hd, List.mem_cons]
        refine not_or.2 ⟨?_, hc⟩
        rintro rfl
        exact hb List.mem_cons_self
      exact List.infix_cons (ih ((infix_append_of_head hc').1 h))

end Escaping

/-- A text that begins with a plus sign and has no quote or backslash occurs in a quoted text only
where it occurs in the text. -/
theorem infix_of_infix_quoted (hs : '\'' ∉ p) (hd : '"' ∉ p) (hb : '\\' ∉ p)
    (h : ('+' :: p) <:+: text.quoted) : ('+' :: p) <:+: text := by
  have hQuote : text.quoteFor = '\'' ∨ text.quoteFor = '"' := by
    unfold quoteFor
    split
    · exact .inr rfl
    · exact .inl rfl
  have hNot : text.quoteFor ∉ '+' :: p := by
    rcases hQuote with hq | hq
    · rw [hq, List.mem_cons]
      exact not_or.2 ⟨by decide, hs⟩
    · rw [hq, List.mem_cons]
      exact not_or.2 ⟨by decide, hd⟩
  have hPlus : '+' ≠ text.quoteFor := fun he => hNot (he ▸ List.mem_cons_self)
  have hEscape (d : Char) : escapeFor text.quoteFor d = [d] ∨
      ∃ t, escapeFor text.quoteFor d = '\\' :: t ∧ '+' ∉ t := by
    refine (escapeFor_eq _ d).imp_right fun ⟨t, ht, hc⟩ => ⟨t, ht, fun hm => ?_⟩
    rcases hc _ hm with hc | hc | hc
    · exact hPlus hc
    · cases hc
    · revert hc
      decide
  have hBack : '\\' ∉ '+' :: p := by
    rw [List.mem_cons]
    exact not_or.2 ⟨by decide, hb⟩
  rw [quoted] at h
  have hInner : ('+' :: p) <:+: [] ++ text.quoteFor ::
      (text.flatMap (escapeFor text.quoteFor) ++ text.quoteFor :: []) := h
  rw [infix_append_cons hNot, infix_append_cons hNot] at hInner
  rcases hInner with hi | hi | hi
  · cases List.infix_nil.1 hi
  · exact infix_of_infix_flatMap hEscape hBack hi
  · cases List.infix_nil.1 hi

end RazorVash.Text
