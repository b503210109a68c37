import RazorVash.Proofs.Text.Seam

namespace RazorVash.Text

variable {old new old' new' u v x p rest text : Text} {c : Char}

theorem Detached.ne_nil (h : Detached u p) : u ≠ [] := by
  rintro rfl
  exact h.1 List.nil_infix

theorem Detached.not_isPrefix_append (h : Detached u p) (hv : v ≠ []) (hSuffix : v <:+ u) :
    ¬ p <+: v ++ text := by
  intro hPrefix
  rcases List.prefix_or_prefix_of_prefix hPrefix (List.prefix_append v text) with hInside | ⟨t, rfl⟩
  · exact h.2.1 (hInside.isInfix.trans hSuffix.isInfix)
  · exact h.not_suffix rfl hv hSuffix

theorem Detached.replaceAll_append (h : Detached u old) (text : Text) :
    replaceAll old new (u ++ text) = u ++ replaceAll old new text := by
  have hPart : ∀ v, v <:+ u → replaceAll old new (v ++ text) = v ++ replaceAll old new text := by
    intro v
    induction v with
    | nil => exact fun _ => rfl
    | cons c v ih =>
      intro hSuffix
      have hHere : ¬ old <+: c :: (v ++ text) :=
        h.not_isPrefix_append (List.cons_ne_nil c v) hSuffix
      rw [List.cons_append, replaceAll_cons_of_not_isPrefix hHere,
        ih ((List.suffix_cons c v).trans hSuffix)]
      rfl
  exact hPart u List.suffix_rfl

theorem Detached.not_isPrefix_replaceAll (h : Detached new p) (ho : old ≠ [])
    (hText : ¬ p <+: c :: text) : ¬ p <+: c :: replaceAll old new text := by
  rcases hCut : cut? old text with _ | ⟨before, rest⟩
  · rwa [replaceAll_of_not_isInfix ho (cut?_eq_none.1 hCut)]
  · rw [replaceAll_of_cut? ho hCut, List.append_assoc, ← List.cons_append]
    rw [cut?_eq_some hCut, List.append_assoc, ← List.cons_append] at hText
    intro hPrefix
    rcases List.prefix_or_prefix_of_prefix hPrefix (List.prefix_append (c :: before) _) with
      hBefore | ⟨t, rfl⟩
    · exact hText (hBefore.trans (List.prefix_append _ _))
    · -- it ends inside the new text or reaches over it
      have ht := (List.prefix_append_right_inj (c :: before)).1 hPrefix
      rcases List.prefix_or_prefix_of_prefix ht (List.prefix_append new _) with hInside | ⟨t', rfl⟩
      · by_cases hNil : t = []
        · exact hText (by simp [hNil])
        · exact h.not_prefix rfl hNil hInside
      · exact h.1 ⟨c :: before, t', by simp⟩

/-- What is put before a detached text leaves it detached, unless the other text is in it or ends with
something it begins with. -/
theorem Detached.append_left (h : Detached u p) (hInfix : ¬ p <:+: x)
    (hPrefix : ∀ y, y ≠ [] → y <+: x → ¬ y <:+ p) : Detached (x ++ u) p := by
  refine ⟨fun hWhole => h.1 ((List.suffix_append x u).isInfix.trans hWhole), ?_, ?_, ?_⟩
  · rintro ⟨a, b, hab⟩
    rcases exists_of_append_eq hab.symm with ⟨t, ht, -⟩ | ⟨t, -, ht⟩ | ⟨s, t, hp, hs, ht, -, hu⟩
    · exact hInfix ⟨a, t, ht.symm⟩
    · exact h.2.1 ⟨t, b, ht.symm⟩
    · exact h.not_prefix hp ht ⟨b, hu.symm⟩
  · intro n hn hSuffix
    have hParts := (List.take_append_drop (n + 1) p).symm
    rcases List.suffix_or_suffix_of_suffix hSuffix (List.suffix_append x u) with hInside | hAround
    · refine h.not_suffix hParts (fun hNil => ?_) hInside
      have := congrArg List.length hNil
      rw [List.length_take, List.length_nil] at this
      omega
    · exact h.1 (hAround.isInfix.trans (List.take_prefix (n + 1) p).isInfix)
  · intro n hn hStart
    have hNe : p.drop n ≠ [] := fun hNil => by
      have := congrArg List.length hNil
      rw [List.length_drop, List.length_nil] at this
      omega
    rcases List.prefix_or_prefix_of_prefix hStart (List.prefix_append x u) with hInside | ⟨s, hs⟩
    · exact hPrefix _ hNe hInside (List.drop_suffix n p)
    · by_cases hNil : s = []
      · have hx : p.drop n = x := by rw [← hs, hNil, List.append_nil]
        exact hPrefix _ hNe (hx ▸ List.prefix_rfl) (List.drop_suffix n p)
      · rw [← hs] at hStart
        have hParts : p = (p.take n ++ x) ++ s := by
          rw [List.append_assoc, hs, List.take_append_drop]
        exact h.not_prefix hParts hNil ((List.prefix_append_right_inj x).1 hStart)

/-- Each of two substitutions leaves alone what the other one replaces and what it puts in. -/
structure Independent (old new old' new' : Text) : Prop where
  olds : Detached old old'
  olds' : Detached old' old
  kept : Detached new old'
  kept' : Detached new' old

namespace Independent

theorem symm (h : Independent old new old' new') : Independent old' new' old new :=
  ⟨h.olds', h.olds, h.kept', h.kept⟩

theorem replaceAll_comm_append (h : Independent old new old' new')
    (hRest : replaceAll old new (replaceAll old' new' rest) =
      replaceAll old' new' (replaceAll old new rest)) :
    replaceAll old new (replaceAll old' new' (old ++ rest)) =
      replaceAll old' new' (replaceAll old new (old ++ rest)) :=
  calc
    _ = replaceAll old new (old ++ replaceAll old' new' rest) := by rw [h.olds.replaceAll_append]
    _ = new ++ replaceAll old new (replaceAll old' new' rest) := replaceAll_append_self h.olds.ne_nil
    _ = new ++ replaceAll old' new' (replaceAll old new rest) := by rw [hRest]
    _ = replaceAll old' new' (new ++ replaceAll old new rest) := (h.kept.replaceAll_append _).symm
    _ = _ := by rw [replaceAll_append_self h.olds.ne_nil]

theorem replaceAll_comm (h : Independent old new old' new') (text : Text) :
    replaceAll old new (replaceAll old' new' text) =
      replaceAll old' new' (replaceAll old new text) := by
  have hOld := h.olds.ne_nil
  have hOld' := h.olds'.ne_nil
  induction hLength : text.length using Nat.strong_induction_on generalizing text with
  | _ n ih =>
    by_cases hStart : old <+: text
    · obtain ⟨rest, rfl⟩ := hStart
      have := List.length_pos_iff.2 hOld
      rw [List.length_append] at hLength
      exact h.replaceAll_comm_append (ih rest.length (by omega) rest rfl)
    · by_cases hStart' : old' <+: text
      · obtain ⟨rest, rfl⟩ := hStart'
        have := List.length_pos_iff.2 hOld'
        rw [List.length_append] at hLength
        exact (h.symm.replaceAll_comm_append (ih rest.length (by omega) rest rfl).symm).symm
      · cases text with
        | nil => rw [replaceAll_nil hOld, replaceAll_nil hOld', replaceAll_nil hOld]
        | cons c text =>
          rw [replaceAll_cons_of_not_isPrefix hStart, replaceAll_cons_of_not_isPrefix hStart',
            replaceAll_cons_of_not_isPrefix (h.kept'.not_isPrefix_replaceAll hOld' hStart),
            replaceAll_cons_of_not_isPrefix (h.kept.not_isPrefix_replaceAll hOld hStart'),
            ih text.length (by rw [← hLength]; exact Nat.lt_succ_self _) text rfl]

end Independent

end RazorVash.Text
