import Mathlib.Data.List.Infix
import RazorVash.Proofs.Text.Substitution

namespace RazorVash.Text

variable {mark u v w a b rest before : Text} {c : Char}

/-- No occurrence of `mark` lies across the place where the texts meet. -/
def Unspanned (mark u v : Text) : Prop :=
  ∀ x y, mark = x ++ y → x <:+ u → y <+: v → x = [] ∨ y = []

theorem exists_of_append_eq (h : u ++ v = a ++ mark ++ b) :
    (∃ x, u = a ++ mark ++ x ∧ b = x ++ v) ∨ (∃ x, a = u ++ x ∧ v = x ++ mark ++ b) ∨
      ∃ x y, mark = x ++ y ∧ x ≠ [] ∧ y ≠ [] ∧ u = a ++ x ∧ v = y ++ b := by
  rw [List.append_assoc] at h
  rcases List.append_eq_append_iff.1 h with ⟨x, rfl, hv⟩ | ⟨x, rfl, hx⟩
  · exact .inr (.inl ⟨x, rfl, by rw [hv, List.append_assoc]⟩)
  · rcases List.append_eq_append_iff.1 hx with ⟨y, rfl, rfl⟩ | ⟨y, rfl, rfl⟩
    · exact .inl ⟨y, by simp, rfl⟩
    · -- the mark begins in the first text, and one of its two parts may be empty
      by_cases hx : x = []
      · exact .inr (.inl ⟨[], by simp [hx], by simp [hx]⟩)
      · by_cases hy : y = []
        · exact .inl ⟨[], by simp [hy], by simp [hy]⟩
        · exact .inr (.inr ⟨x, y, rfl, hx, hy, rfl, rfl⟩)

theorem Unspanned.in_parts (hs : Unspanned mark u v) (h : u ++ v = a ++ mark ++ b) :
    (∃ x, u = a ++ mark ++ x ∧ b = x ++ v) ∨ ∃ x, a = u ++ x ∧ v = x ++ mark ++ b := by
  rcases exists_of_append_eq h with h | h | ⟨x, y, hm, hx, hy, hu, hv⟩
  · exact .inl h
  · exact .inr h
  · rcases hs x y hm ⟨a, hu.symm⟩ ⟨b, hv.symm⟩ with rfl | rfl
    · exact absurd rfl hx
    · exact absurd rfl hy

theorem Unspanned.infix_append (hs : Unspanned mark u v) (h : mark <:+: u ++ v) :
    mark <:+: u ∨ mark <:+: v := by
  obtain ⟨a, b, hab⟩ := h
  rcases hs.in_parts hab.symm with ⟨x, hu, -⟩ | ⟨x, -, hv⟩
  · exact .inl ⟨a, x, hu.symm⟩
  · exact .inr ⟨x, b, hv.symm⟩

theorem Unspanned.of_isSuffix (hs : Unspanned mark u v) (h : w <:+ u) : Unspanned mark w v :=
  fun x y hm hx hy => hs x y hm (hx.trans h) hy

theorem Unspanned.append_cons (hc : c ∉ mark) (hs : Unspanned mark w v) :
    Unspanned mark (u ++ c :: w) v := by
  rintro x y rfl ⟨t, ht⟩ hy
  refine hs x y rfl ?_ hy
  rw [List.mem_append, not_or] at hc
  rcases List.append_eq_append_iff.1 ht with ⟨s, rfl, rfl⟩ | ⟨s, rfl, hs⟩
  · exact absurd (by simp) hc.1
  · cases s with
    | nil =>
      rw [List.nil_append] at hs
      exact absurd (by simp [← hs]) hc.1
    | cons d s => exact ⟨s, (List.cons.inj hs).2.symm⟩

theorem unspanned_concat (hc : c ∉ mark) : Unspanned mark (u ++ [c]) v := by
  refine Unspanned.append_cons hc fun x y _ hx _ => .inl ?_
  exact List.suffix_nil.1 hx

theorem cut?_append_left (h : cut? mark u = some (before, rest)) :
    cut? mark (u ++ v) = some (before, rest ++ v) := by
  have hText : u ++ v = before ++ mark ++ (rest ++ v) := by
    rw [cut?_eq_some h]
    simp
  rw [hText]
  apply cut?_append
  intro a b hab
  refine Nat.le_of_not_lt fun hLess => ?_
  -- an earlier occurrence would end before the text does
  have hLength := congrArg List.length (cut?_eq_some h)
  simp only [List.length_append] at hLength
  have hPrefix : a ++ mark <+: u := by
    apply List.prefix_of_prefix_length_le ⟨b, hab.symm.trans hText.symm⟩ ⟨v, rfl⟩
    simp only [List.length_append]
    omega
  obtain ⟨t, ht⟩ := hPrefix
  have := length_le_of_cut? h ht.symm
  omega

theorem cut?_append_right (hu : ¬ mark <:+: u) (hs : Unspanned mark u v)
    (h : cut? mark v = some (before, rest)) : cut? mark (u ++ v) = some (u ++ before, rest) := by
  have hText : u ++ v = u ++ before ++ mark ++ rest := by
    rw [cut?_eq_some h]
    simp
  rw [hText]
  apply cut?_append
  intro a b hab
  rcases hs.in_parts (hText.trans hab) with ⟨x, hx, -⟩ | ⟨x, rfl, hx⟩
  · exact absurd ⟨a, x, hx.symm⟩ hu
  · have := length_le_of_cut? h hx
    simp only [List.length_append]
    omega

/-- Neither text is part of the other, and neither begins with what the other ends with. -/
def Detached (new p : Text) : Prop :=
  ¬ new <:+: p ∧ ¬ p <:+: new ∧ (∀ n < p.length, ¬ p.take (n + 1) <:+ new) ∧
    ∀ n < p.length, ¬ p.drop n <+: new

instance (new p : Text) : Decidable (Detached new p) := by
  unfold Detached
  infer_instance

section Detached
variable {new p x y : Text}

theorem Detached.not_suffix (h : Detached new p) (hp : p = x ++ y) (hx : x ≠ []) : ¬ x <:+ new := by
  subst hp
  have hLength := List.length_pos_iff.2 hx
  have := h.2.2.1 (x.length - 1) (by rw [List.length_append]; omega)
  rwa [Nat.sub_add_cancel hLength, List.take_left] at this

theorem Detached.not_prefix (h : Detached new p) (hp : p = x ++ y) (hy : y ≠ []) : ¬ y <+: new := by
  subst hp
  have hLength := List.length_pos_iff.2 hy
  have := h.2.2.2 x.length (by rw [List.length_append]; omega)
  rwa [List.drop_left] at this

theorem separates_of_detached (h : Detached new p) : Separates new p := by
  intro u v hp
  rw [List.append_assoc] at hp
  obtain ⟨a, b, hab⟩ := hp
  rcases exists_of_append_eq hab.symm with ⟨x, hx, -⟩ | ⟨x, -, hx⟩ | ⟨x, y, hp, hx, hy, hu, hv⟩
  · exact .inl ⟨a, x, hx.symm⟩
  · -- it begins in the new text or after it
    rcases exists_of_append_eq hx with ⟨y, hy, -⟩ | ⟨y, -, hy⟩ | ⟨y, z, hp, hy, -, hNew, -⟩
    · exact absurd ⟨x, y, hy.symm⟩ h.2.1
    · exact .inr ⟨y, b, hy.symm⟩
    · exact absurd ⟨x, hNew.symm⟩ (h.not_suffix hp hy)
  · -- it begins before the new text and reaches over it or into it
    rcases List.append_eq_append_iff.1 hv with ⟨t, rfl, -⟩ | ⟨t, rfl, -⟩
    · exact absurd ⟨x, t, by simp [hp]⟩ h.1
    · exact absurd ⟨t, rfl⟩ (h.not_prefix hp hy)

end Detached

end RazorVash.Text
