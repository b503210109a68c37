import RazorVash.Text.Basic

namespace RazorVash.Text

theorem count_replaceAll_le {new : Text} {c : Char} (h : c ∉ new) (old text : Text) :
    (replaceAll old new text).count c ≤ text.count c := by
  have hn : new.count c = 0 := List.count_eq_zero.2 h
  by_cases ho : old = []
  · rw [replaceAll, dif_pos ho, List.count_append, hn, Nat.zero_add]
    induction text with
    | nil => simp
    | cons d text ih =>
      rw [List.flatMap_cons, List.count_append, List.count_cons, List.count_cons, hn]
      omega
  · fun_induction replaceAll old new text with
    | case1 => contradiction
    | case2 => exact Nat.le_refl _
    | case3 text _ before rest hc ih =>
      have := congrArg (List.count c) (cut?_eq_some hc)
      simp only [List.count_append, hn] at this ⊢
      omega

theorem cutLast?_eq_some {mark text before rest : Text}
    (h : cutLast? mark text = some (before, rest)) : text = before ++ mark ++ rest := by
  induction text generalizing before with
  | nil =>
    simp only [cutLast?, Option.map_eq_some_iff, Prod.mk.injEq] at h
    obtain ⟨r, hr, rfl, rfl⟩ := h
    simpa using after?_eq_some.1 hr
  | cons c text ih =>
    rw [cutLast?] at h
    split at h
    · next b r hbr =>
      simp only [Option.some.injEq, Prod.mk.injEq] at h
      obtain ⟨rfl, rfl⟩ := h
      simp [ih hbr]
    · simp only [Option.map_eq_some_iff, Prod.mk.injEq] at h
      obtain ⟨r, hr, rfl, rfl⟩ := h
      simpa using after?_eq_some.1 hr

theorem count_replaceAllButLast_le {new : Text} {c : Char} (h : c ∉ new) (token text : Text) :
    (replaceAllButLast token new text).count c ≤ text.count c := by
  unfold replaceAllButLast
  split
  · exact Nat.le_refl _
  · next before rest hc =>
    have h₁ := congrArg (List.count c) (cutLast?_eq_some hc)
    have h₂ := count_replaceAll_le h token before
    simp only [List.count_append] at h₁ ⊢
    omega

theorem count_slice_zero_add_sliceFrom (text : Text) (c : Char) (i : Int) :
    (text.slice 0 i).count c + (text.sliceFrom i).count c = text.count c := by
  have h : text.slice 0 i = text.take (text.place i) := by simp [slice, place]
  rw [h, sliceFrom, ← List.count_append, List.take_append_drop]

end RazorVash.Text
