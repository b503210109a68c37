import RazorVash.Proofs.Draft.Pairing

namespace RazorVash.Draft
open Piece

variable {outer : List Piece} {d d₁ d₂ : Draft} {m : Mark}

theorem legible_placeholder : Legible Mark.placeholder := fun _ => .inl rfl

def markAll (m : Mark) (d : Draft) : Draft := d.map fun p => if p = brace then .mark m else p

theorem replaceAll_closer_placeholder (m k : Mark) :
    Text.replaceAll ['}'] m.placeholder k.placeholder = k.placeholder := by
  apply Text.replaceAll_of_not_isInfix (List.cons_ne_nil _ _)
  apply Text.not_infix_of_notMem List.mem_cons_self
  cases k <;> decide

theorem replaceAll_closer_spell (m : Mark) (d : Draft) :
    Text.replaceAll ['}'] m.placeholder (spell Mark.placeholder d) =
      spell Mark.placeholder (markAll m d) := by
  induction d with
  | nil => exact Text.replaceAll_nil (List.cons_ne_nil _ _)
  | cons p d ih =>
    rw [Text.replaceAll_singleton] at ih ⊢
    rw [markAll, List.map_cons, ← markAll]
    cases p with
    | char c =>
      rw [spell_char, List.flatMap_cons, ih]
      by_cases hc : c = '}'
      · subst hc
        rw [if_pos rfl, if_pos (by rfl), spell_mark]
      · rw [if_neg hc, if_neg (by simp [brace, hc]), spell_char]
        rfl
    | mark k =>
      have hk := replaceAll_closer_placeholder m k
      rw [Text.replaceAll_singleton] at hk
      rw [spell_mark, List.flatMap_append, ih, hk, if_neg (by simp [brace]), spell_mark]

theorem Clean.markAll (m : Mark) (h : Clean d) : Clean (markAll m d) := by
  intro hs
  -- what is spelled as the stem has no mark, so marking has left it alone
  obtain ⟨l, hl, he⟩ := List.infix_map_iff.1 hs
  have hSame : ∀ p ∈ l, (if p = brace then Piece.mark m else p) = p := by
    intro p hp
    have hp' := List.mem_map_of_mem hp (f := fun p => if p = brace then Piece.mark m else p)
    rw [← he] at hp'
    obtain ⟨c, -, hc⟩ := List.mem_map.1 hp'
    by_cases hb : p = brace
    · rw [if_pos hb] at hc
      cases hc
    · exact if_neg hb
  rw [List.map_congr_left hSame, List.map_id'] at he
  exact h (he ▸ hl)

/-- With `m` spelled as a closing brace again, marking every brace changes nothing. -/
theorem spell_markAll (hFresh : .mark m ∉ d) :
    spell (fun k => if k = m then ['}'] else k.placeholder) (markAll m d) =
      spell Mark.placeholder d := by
  induction d with
  | nil => rfl
  | cons p d ih =>
    have ih := ih fun h => hFresh (List.mem_cons_of_mem _ h)
    rw [markAll, List.map_cons, ← markAll]
    by_cases hp : p = brace
    · subst hp
      rw [if_pos rfl, spell_mark, if_pos rfl, ih]
      rfl
    · rw [if_neg hp]
      cases p with
      | char c => rw [spell_char, spell_char, ih]
      | mark k =>
        have hk : k ≠ m := by
          rintro rfl
          exact hFresh List.mem_cons_self
        rw [spell_mark, spell_mark, if_neg hk, ih]

theorem markMatchingClose_spell (hClean : Clean (d₁ ++ brace :: d₂)) (h : Closes m [] outer d₁ d₂) :
    ∃ i, Brace.markMatchingClose (spell Mark.placeholder (d₁ ++ brace :: d₂)) 0 m.placeholder =
      .ok (spell Mark.placeholder (d₁ ++ .mark m :: d₂), i) := by
  have hSpell : spell Mark.placeholder (d₁ ++ brace :: d₂) =
      spell Mark.placeholder d₁ ++ '}' :: spell Mark.placeholder d₂ := spell_append
  have hReplaced : Text.replaceAll ['}'] m.placeholder (spell Mark.placeholder d₁ ++ ['}']) =
      spell Mark.placeholder (markAll m d₁) ++ m.placeholder := by
    have := replaceAll_closer_spell m (d₁ ++ [brace])
    simpa [markAll, brace] using this
  have hBack : Text.replaceAll m.placeholder ['}'] (spell Mark.placeholder (markAll m d₁)) =
      spell Mark.placeholder d₁ := by
    have := replaceAll_spell (g := fun k => if k = m then ['}'] else k.placeholder)
      legible_placeholder rfl (fun k hk => if_neg hk) (hClean.of_append_left.markAll m)
    rwa [if_pos rfl, spell_markAll h.fresh] at this
  have hClose := h.closer
  rw [hSpell] at hClose ⊢
  obtain ⟨i, hi⟩ := Brace.markMatchingClose_zero m.placeholder hClose
  refine ⟨i, ?_⟩
  rw [hi, hReplaced, Text.replaceAllButLast_append_self m.placeholder_ne_nil, hBack]
  simp

end RazorVash.Draft
