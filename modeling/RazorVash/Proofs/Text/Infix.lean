import RazorVash.Text.Blank
import RazorVash.Text.Count

namespace RazorVash.Text

section Seams
variable {α : Type} {p u v : List α} {c : α}

theorem infix_append_cons (h : c ∉ p) : p <:+: u ++ c :: v ↔ p <:+: u ∨ p <:+: v := by
  constructor
  · intro hp
    rcases List.infix_append_iff.1 hp with hu | hv | ⟨a, b, rfl, ha, hb⟩
    · exact .inl hu
    · rcases List.infix_cons_iff.1 hv with hv | hv
      · rcases List.prefix_cons_iff.1 hv with rfl | ⟨t, rfl, -⟩
        · exact .inr List.nil_infix
        · exact absurd List.mem_cons_self h
      · exact .inr hv
    · rcases List.prefix_cons_iff.1 hb with rfl | ⟨t, rfl, -⟩
      · exact .inl (by simpa using ha.isInfix)
      · exact absurd (by simp) h
  · rintro (hu | hv)
    · exact List.infix_append_of_infix_left hu
    · exact List.infix_append_of_infix_right (List.infix_cons hv)

theorem infix_append_of_head (h : c ∉ u) : (c :: p) <:+: u ++ v ↔ (c :: p) <:+: v := by
  refine ⟨fun hp => ?_, List.infix_append_of_infix_right⟩
  rcases List.infix_append_iff.1 hp with hu | hv | ⟨a, b, he, ha, hb⟩
  · exact absurd (hu.subset List.mem_cons_self) h
  · exact hv
  · cases a with
    | nil => rw [he]; exact hb.isInfix
    | cons d a =>
      obtain ⟨rfl, -⟩ := List.cons.inj he
      exact absurd (ha.subset List.mem_cons_self) h

theorem infix_append_of_last (h : c ∉ v) : (p ++ [c]) <:+: u ++ v ↔ (p ++ [c]) <:+: u := by
  rw [← List.reverse_infix, ← @List.reverse_infix _ (p ++ [c]) u]
  simpa using infix_append_of_head (p := p.reverse) (u := v.reverse) (v := u.reverse)
    (by simpa using h)

theorem not_infix_of_notMem (hc : c ∈ p) (h : c ∉ u) : ¬ p <:+: u := fun hp => h (hp.subset hc)

theorem append_inj_of_notMem {u' v' : List α} (hu : c ∉ u) (hu' : c ∉ u')
    (h : u ++ c :: v = u' ++ c :: v') : u = u' ∧ v = v' := by
  rcases List.append_eq_append_iff.1 h with ⟨a, rfl, ha⟩ | ⟨a, rfl, ha⟩
  · cases a with
    | nil => simpa using ha
    | cons d a =>
      obtain ⟨rfl, -⟩ := List.cons.inj ha
      exact absurd (by simp) hu'
  · cases a with
    | nil => simpa [eq_comm] using ha
    | cons d a =>
      obtain ⟨rfl, -⟩ := List.cons.inj ha
      exact absurd (by simp) hu

theorem append_inj_of_notMem_right {u' v' : List α} (hv : c ∉ v) (hv' : c ∉ v')
    (h : u ++ c :: v = u' ++ c :: v') : u = u' ∧ v = v' := by
  have hReverse : v.reverse ++ c :: u.reverse = v'.reverse ++ c :: u'.reverse := by
    simpa using congrArg List.reverse h
  obtain ⟨h₁, h₂⟩ := append_inj_of_notMem (by simpa using hv) (by simpa using hv') hReverse
  exact ⟨List.reverse_inj.1 h₂, List.reverse_inj.1 h₁⟩

end Seams

def Apart (s t : Text) : Prop := ∀ c ∈ s, c ∉ t

instance (s t : Text) : Decidable (Apart s t) := List.decidableBAll _ s

variable {mark text before rest : Text} {c : Char}

theorem after?_eq_none : after? mark text = none ↔ ¬ mark <+: text := by
  constructor
  · rintro h ⟨t, rfl⟩
    rw [after?_eq_some.2 rfl] at h
    cases h
  · intro h
    cases ha : after? mark text with
    | none => rfl
    | some t => exact absurd ⟨t, (after?_eq_some.1 ha).symm⟩ h

theorem cut?_cons_of_not_isPrefix (h : ¬ mark <+: c :: text) :
    cut? mark (c :: text) = (cut? mark text).map fun (before, rest) => (c :: before, rest) := by
  rw [cut?, after?_eq_none.2 h]

theorem cut?_append (h : ∀ u v, before ++ mark ++ rest = u ++ mark ++ v → before.length ≤ u.length) :
    cut? mark (before ++ mark ++ rest) = some (before, rest) := by
  induction before with
  | nil =>
    cases hm : mark ++ rest with
    | nil =>
      obtain ⟨rfl, rfl⟩ := List.append_eq_nil_iff.1 hm
      rfl
    | cons c t =>
      have ha : after? mark (c :: t) = some rest := after?_eq_some.2 hm.symm
      simp only [List.nil_append, hm, cut?, ha]
  | cons c before ih =>
    have hc : ¬ mark <+: c :: (before ++ mark ++ rest) := by
      rintro ⟨v, hv⟩
      have := h [] v (by simpa using hv.symm)
      simp at this
    have ht : cut? mark (before ++ mark ++ rest) = some (before, rest) := by
      apply ih
      intro u v hu
      have := h (c :: u) v (by simpa using hu)
      simpa using this
    rw [List.cons_append, List.cons_append, cut?_cons_of_not_isPrefix hc, ht]
    rfl

theorem cut?_eq_none : cut? mark text = none ↔ ¬ mark <:+: text := by
  constructor
  · rintro h hm
    induction text with
    | nil =>
      obtain rfl := List.infix_nil.1 hm
      simp [cut?, after?] at h
    | cons c text ih =>
      rw [cut?] at h
      split at h
      · cases h
      · next ha =>
        rcases List.infix_cons_iff.1 hm with hp | hi
        · exact absurd hp (after?_eq_none.1 ha)
        · exact ih (by simpa using h) hi
  · intro h
    cases hc : cut? mark text with
    | none => rfl
    | some s => exact absurd ⟨s.1, s.2, (cut?_eq_some hc).symm⟩ h

theorem length_le_of_cut? (h : cut? mark text = some (before, rest)) {u v : Text}
    (hu : text = u ++ mark ++ v) : before.length ≤ u.length := by
  induction text generalizing before u with
  | nil =>
    have := congrArg List.length (cut?_eq_some h)
    simp only [List.length_nil, List.length_append] at this
    omega
  | cons c text ih =>
    rw [cut?] at h
    split at h
    · obtain ⟨rfl, -⟩ : [] = before ∧ _ := by simpa using h
      exact Nat.zero_le _
    · next ha =>
      simp only [Option.map_eq_some_iff, Prod.mk.injEq] at h
      obtain ⟨⟨b, r⟩, hb, rfl, rfl⟩ := h
      cases u with
      | nil => exact absurd ⟨v, by simpa using hu.symm⟩ (after?_eq_none.1 ha)
      | cons d u =>
        have := ih hb (u := u) (by simpa using (List.cons.inj hu).2)
        simpa using this

theorem not_infix_of_cut? (hm : mark ≠ []) (h : cut? mark text = some (before, rest)) :
    ¬ mark <:+: before := by
  rintro ⟨u, v, rfl⟩
  have hl := length_le_of_cut? h (u := u) (v := v ++ mark ++ rest)
    (by rw [cut?_eq_some h]; simp)
  have := List.length_pos_iff.2 hm
  simp only [List.length_append] at hl
  omega

theorem cut?_singleton (h : c ∉ before) : cut? [c] (before ++ c :: rest) = some (before, rest) := by
  rw [List.append_cons]
  apply cut?_append
  intro u v hu
  refine Nat.le_of_not_lt fun hl => h ?_
  have hp : u ++ [c] <+: before := by
    apply List.prefix_of_prefix_length_le ⟨v, hu.symm⟩ ⟨[c] ++ rest, by simp⟩
    simp only [List.length_append, List.length_singleton]
    omega
  exact hp.subset (by simp)

theorem trimEnd_isPrefix (text : Text) : text.trimEnd <+: text := by
  rw [← List.reverse_suffix, trimEnd, List.reverse_reverse]
  exact List.dropWhile_suffix _

/-- What is trimmed off is blank. -/
theorem exists_eq_trim (text : Text) :
    ∃ l r, text = l ++ text.trim ++ r ∧ (∀ c ∈ l, isBlank c) ∧ ∀ c ∈ r, isBlank c := by
  have hStart : text = text.takeWhile isBlank ++ text.trimStart :=
    List.takeWhile_append_dropWhile.symm
  have hEnd : text.trimStart =
      text.trim ++ (text.trimStart.reverse.takeWhile isBlank).reverse := by
    rw [trim, trimEnd, ← List.reverse_append, List.takeWhile_append_dropWhile, List.reverse_reverse]
  refine ⟨text.takeWhile isBlank, (text.trimStart.reverse.takeWhile isBlank).reverse, ?_,
    fun c hc => ?_, fun c hc => ?_⟩
  · rw [List.append_assoc, ← hEnd]
    exact hStart
  · exact List.all_eq_true.1 List.all_takeWhile c hc
  · exact List.all_eq_true.1 List.all_takeWhile c (List.mem_reverse.1 hc)

theorem trim_infix (text : Text) : text.trim <:+: text :=
  (trimEnd_isPrefix _).isInfix.trans (List.dropWhile_suffix _).isInfix

theorem trim_ne_nil (h : text.allBlank = false) : text.trim ≠ [] := by
  obtain ⟨l, r, hText, hl, hr⟩ := text.exists_eq_trim
  intro hTrim
  rw [hTrim] at hText
  have hBlank : text.allBlank = true := by
    rw [hText]
    simp only [allBlank, List.all_append, List.all_eq_true.2 hl, List.all_eq_true.2 hr]
    rfl
  rw [hBlank] at h
  cases h

theorem trim_append {blanks : Text} (h : blanks.allBlank) : trim (blanks ++ text) = text.trim := by
  rw [trim, trim, trimStart, List.dropWhile_append_of_pos (List.all_eq_true.1 h), ← trimStart]

end RazorVash.Text
