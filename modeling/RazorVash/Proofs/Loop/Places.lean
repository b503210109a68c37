import RazorVash.Proofs.Loop.Opener

namespace RazorVash.Loop

/-- The places of the openers of a text whose first character is at `n`, in text order. -/
def openerPlaces (n : Nat) : Text → List Nat
  | [] => []
  | c :: text => (if (openerAt? (c :: text)).isSome then [n] else []) ++ openerPlaces (n + 1) text

variable {text before opener rest header body : Text} {n : Nat}

theorem openerAt?_isSome_iff : (openerAt? text).isSome ↔ ∃ o, IsOpener o ∧ o <+: text := by
  rw [Option.isSome_iff_exists]
  constructor
  · rintro ⟨⟨o, r⟩, h⟩
    obtain ⟨ho, rfl⟩ := openerAt?_eq_some_iff.1 h
    exact ⟨o, ho, List.prefix_append _ _⟩
  · rintro ⟨o, ho, r, rfl⟩
    exact ⟨(o, r), openerAt?_eq_some_iff.2 ⟨ho, rfl⟩⟩

theorem le_of_mem_openerPlaces {i : Nat} (h : i ∈ openerPlaces n text) : n ≤ i := by
  induction text generalizing n with
  | nil => cases h
  | cons c text ih =>
    rw [openerPlaces, List.mem_append] at h
    rcases h with h | h
    · split at h
      · exact Nat.le_of_eq (List.mem_singleton.1 h).symm
      · cases h
    · exact Nat.le_of_succ_le (ih h)

theorem pairwise_openerPlaces (n : Nat) (text : Text) : (openerPlaces n text).Pairwise (· < ·) := by
  induction text generalizing n with
  | nil => exact .nil
  | cons c text ih =>
    rw [openerPlaces]
    split
    · exact List.pairwise_cons.2 ⟨fun i hi => le_of_mem_openerPlaces hi, ih (n + 1)⟩
    · exact ih (n + 1)

theorem openerPlaces_cons_of_not {c : Char} (h : ∀ o, IsOpener o → ¬ o <+: c :: text) :
    openerPlaces n (c :: text) = openerPlaces (n + 1) text := by
  rw [openerPlaces, if_neg, List.nil_append]
  intro hSome
  obtain ⟨o, ho, hPrefix⟩ := openerAt?_isSome_iff.1 hSome
  exact h o ho hPrefix

theorem openerPlaces_append {u : Text} (h : '@' ∉ u) :
    openerPlaces n (u ++ text) = openerPlaces (n + u.length) text := by
  induction u generalizing n with
  | nil => rfl
  | cons c u ih =>
    rw [List.mem_cons, not_or] at h
    rw [List.cons_append, openerPlaces_cons_of_not, ih h.2, List.length_cons]
    · congr 1
      omega
    · rintro o ho ⟨r, hr⟩
      obtain ⟨p, rfl⟩ := ho.exists_cons
      exact h.1 (List.cons.inj hr).1

/-- A header without an opener has no place, whatever comes after its brace. -/
theorem openerPlaces_header (h : ∀ o, IsOpener o → ¬ o <:+: header) :
    openerPlaces n (header ++ '{' :: body) = openerPlaces (n + header.length + 1) body := by
  have hBrace {o : Text} (ho : IsOpener o) : '{' ∉ o :=
    ho.notMem (by decide) (by decide) (by decide)
  induction header generalizing n with
  | nil => exact openerPlaces_append (u := ['{']) (by decide)
  | cons c header ih =>
    rw [List.cons_append, openerPlaces_cons_of_not, ih fun o ho hi => h o ho (List.infix_cons hi)]
    · rw [List.length_cons]
      congr 1
      omega
    · rintro o ho ⟨r, hr⟩
      have hText : o ++ r = (c :: header) ++ '{' :: body := hr
      rcases List.append_eq_append_iff.1 hText with ⟨a, ha, -⟩ | ⟨a, rfl, ha⟩
      · exact h o ho ⟨[], a, ha.symm⟩
      · cases a with
        | nil => exact h _ ho ⟨[], [], by simp⟩
        | cons e a =>
          obtain ⟨rfl, -⟩ := List.cons.inj ha
          exact hBrace ho (by simp)

theorem openerPlaces_of_cutOpener?_eq_none (h : cutOpener? text = none) :
    openerPlaces n text = [] := by
  rw [cutOpener?_eq_none] at h
  induction text generalizing n with
  | nil => rfl
  | cons c text ih =>
    rw [openerPlaces_cons_of_not fun o ho hp => h o ho hp.isInfix]
    exact ih fun o ho hi => h o ho (List.infix_cons hi)

theorem openerPlaces_of_cutOpener? (h : cutOpener? text = some (before, opener, rest)) :
    openerPlaces n text =
      (n + before.length) :: openerPlaces (n + before.length + opener.length) rest := by
  induction text generalizing before n with
  | nil => cases h
  | cons c text ih =>
    rw [cutOpener?] at h
    split at h
    · next o r hAt =>
      obtain ⟨rfl, rfl, rfl⟩ : [] = before ∧ o = opener ∧ r = rest := by simpa using h
      obtain ⟨ho, hText⟩ := openerAt?_eq_some_iff.1 hAt
      obtain ⟨p, rfl, -, hp⟩ := ho.exists_rest
      have hRest : text = p ++ r := (List.cons.inj hText).2
      rw [openerPlaces, hAt, hRest, openerPlaces_append hp, List.length_cons, List.length_nil]
      simp only [Option.isSome_some, if_true, List.singleton_append, Nat.add_zero]
      congr 2
      omega
    · next hNone =>
      obtain ⟨⟨b, o, r⟩, hb, hs⟩ := Option.map_eq_some_iff.1 h
      obtain ⟨rfl, rfl, rfl⟩ : c :: b = before ∧ o = opener ∧ r = rest := by simpa using hs
      rw [openerPlaces, hNone, ih hb, List.length_cons]
      simp only [Option.isSome_none, Bool.false_eq_true, if_false, List.nil_append]
      rw [Nat.add_assoc n 1, Nat.add_comm 1]

end RazorVash.Loop
