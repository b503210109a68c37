import RazorVash.Loop.Conversion
import RazorVash.Proofs.Text.Infix

namespace RazorVash.Loop

def keyword : Text := "@foreach".toList

def IsOpener (opener : Text) : Prop :=
  ∃ blanks, opener = keyword ++ blanks ++ ['('] ∧ ∀ c ∈ blanks, isBlank c

variable {text before opener rest : Text}

theorem IsOpener.exists_cons (h : IsOpener opener) : ∃ p, opener = '@' :: p := by
  obtain ⟨blanks, rfl, -⟩ := h
  exact ⟨_, rfl⟩

theorem at_notMem_of_blanks {blanks : Text} (h : ∀ c ∈ blanks, isBlank c) : '@' ∉ blanks := by
  intro hm
  have := h _ hm
  revert this
  decide

theorem IsOpener.exists_rest (h : IsOpener opener) : ∃ p, opener = '@' :: p ∧ p ≠ [] ∧ '@' ∉ p := by
  obtain ⟨blanks, rfl, hBlanks⟩ := h
  refine ⟨"foreach".toList ++ blanks ++ ['('], rfl, by simp, ?_⟩
  have := at_notMem_of_blanks hBlanks
  simp [this]

theorem IsOpener.exists_concat (h : IsOpener opener) : ∃ p, opener = p ++ ['('] := by
  obtain ⟨blanks, rfl, -⟩ := h
  exact ⟨_, rfl⟩

theorem IsOpener.ne_nil (h : IsOpener opener) : opener ≠ [] := by
  obtain ⟨p, rfl⟩ := h.exists_cons
  exact List.cons_ne_nil _ _

theorem IsOpener.notMem (h : IsOpener opener) {c : Char} (hb : isBlank c = false)
    (hk : c ∉ keyword) (hp : c ≠ '(') : c ∉ opener := by
  obtain ⟨blanks, rfl, hBlanks⟩ := h
  intro hc
  simp only [List.mem_append, List.mem_singleton] at hc
  rcases hc with (hc | hc) | hc
  · exact hk hc
  · rw [hBlanks c hc] at hb
    cases hb
  · exact hp hc

theorem dropWhile_blanks {blanks : Text} (h : ∀ c ∈ blanks, isBlank c) :
    (blanks ++ '(' :: rest).dropWhile isBlank = '(' :: rest := by
  rw [List.dropWhile_append_of_pos h]
  rfl

theorem takeWhile_blanks {blanks : Text} (h : ∀ c ∈ blanks, isBlank c) :
    (blanks ++ '(' :: rest).takeWhile isBlank = blanks := by
  rw [List.takeWhile_append_of_pos h]
  exact List.append_nil _

theorem openerAt?_append {blanks : Text} (h : ∀ c ∈ blanks, isBlank c) :
    openerAt? (keyword ++ blanks ++ ['('] ++ rest) = some (keyword ++ blanks ++ ['('], rest) := by
  have ha : Text.after? "@foreach".toList (keyword ++ blanks ++ ['('] ++ rest) =
      some (blanks ++ '(' :: rest) := by
    rw [Text.after?_eq_some, List.append_assoc, List.append_assoc]
    rfl
  rw [openerAt?, ha]
  simp only [dropWhile_blanks h, takeWhile_blanks h]
  rfl

theorem openerAt?_eq_some_iff :
    openerAt? text = some (opener, rest) ↔ IsOpener opener ∧ text = opener ++ rest := by
  constructor
  · intro h
    refine ⟨?_, openerAt?_eq_some h⟩
    unfold openerAt? at h
    split at h
    · cases h
    · next after _ =>
      split at h
      · obtain ⟨rfl, -⟩ := Prod.mk.inj (Option.some.inj h)
        exact ⟨after.takeWhile isBlank, rfl, fun c hc => List.all_eq_true.1 List.all_takeWhile c hc⟩
      · cases h
  · rintro ⟨⟨blanks, ho, hBlanks⟩, ht⟩
    rw [ht, ho]
    exact openerAt?_append hBlanks

theorem cutOpener?_eq_none : cutOpener? text = none ↔ ∀ o, IsOpener o → ¬ o <:+: text := by
  induction text with
  | nil =>
    refine ⟨fun _ o ho h => ho.ne_nil (List.infix_nil.1 h), fun _ => rfl⟩
  | cons c text ih =>
    rw [cutOpener?]
    constructor
    · intro h o ho hi
      split at h
      · cases h
      · next hn =>
        rcases List.infix_cons_iff.1 hi with ⟨v, hv⟩ | hi
        · rw [openerAt?_eq_some_iff.2 ⟨ho, hv.symm⟩] at hn
          cases hn
        · exact ih.1 (by simpa using h) o ho hi
    · intro h
      split
      · next o r ho =>
        obtain ⟨hOpener, hText⟩ := openerAt?_eq_some_iff.1 ho
        exact absurd ⟨[], r, by simpa using hText.symm⟩ (h o hOpener)
      · rw [ih.2 fun o ho hi => h o ho (List.infix_cons hi)]
        rfl

theorem hasOpener_eq_false : hasOpener text = false ↔ ∀ o, IsOpener o → ¬ o <:+: text := by
  rw [← cutOpener?_eq_none, hasOpener]
  simp

theorem isOpener_of_cutOpener? (h : cutOpener? text = some (before, opener, rest)) :
    IsOpener opener := by
  induction text generalizing before with
  | nil => cases h
  | cons c text ih =>
    rw [cutOpener?] at h
    split at h
    · next o r ho =>
      obtain ⟨rfl, rfl, rfl⟩ : [] = before ∧ o = opener ∧ r = rest := by simpa using h
      exact (openerAt?_eq_some_iff.1 ho).1
    · obtain ⟨⟨b, o, r⟩, hb, hs⟩ := Option.map_eq_some_iff.1 h
      obtain ⟨rfl, rfl, rfl⟩ : c :: b = before ∧ o = opener ∧ r = rest := by simpa using hs
      exact ih hb

/-- The search gives the first opener. -/
theorem length_le_of_cutOpener? (h : cutOpener? text = some (before, opener, rest)) {u o v : Text}
    (ho : IsOpener o) (hu : text = u ++ o ++ v) : before.length ≤ u.length := by
  induction text generalizing before u with
  | nil => cases h
  | cons c text ih =>
    rw [cutOpener?] at h
    split at h
    · obtain ⟨rfl, -⟩ : [] = before ∧ _ := by simpa using h
      exact Nat.zero_le _
    · next hn =>
      obtain ⟨⟨b, o', r⟩, hb, hs⟩ := Option.map_eq_some_iff.1 h
      obtain ⟨rfl, rfl, rfl⟩ : c :: b = before ∧ o' = opener ∧ r = rest := by simpa using hs
      cases u with
      | nil =>
        rw [List.nil_append] at hu
        rw [openerAt?_eq_some_iff.2 ⟨ho, hu⟩] at hn
        cases hn
      | cons d u =>
        have := ih hb (u := u) (List.cons.inj hu).2
        simpa using this

theorem cutOpener?_append (ho : IsOpener opener)
    (h : ∀ u o v, IsOpener o → before ++ opener ++ rest = u ++ o ++ v →
      before.length ≤ u.length) :
    cutOpener? (before ++ opener ++ rest) = some (before, opener, rest) := by
  induction before with
  | nil =>
    obtain ⟨p, rfl⟩ := ho.exists_cons
    have hAt : openerAt? ('@' :: (p ++ rest)) = some ('@' :: p, rest) :=
      openerAt?_eq_some_iff.2 ⟨ho, rfl⟩
    rw [List.nil_append, List.cons_append, cutOpener?, hAt]
  | cons c before ih =>
    have hc : openerAt? (c :: (before ++ opener ++ rest)) = none := by
      cases hAt : openerAt? (c :: (before ++ opener ++ rest)) with
      | none => rfl
      | some s =>
        obtain ⟨hs, hText⟩ := openerAt?_eq_some_iff.1 hAt
        have := h [] s.1 s.2 hs (by simpa using hText)
        simp at this
    have ht : cutOpener? (before ++ opener ++ rest) = some (before, opener, rest) := by
      apply ih
      intro u o v hOpener hu
      have := h (c :: u) o v hOpener (by simpa using hu)
      simpa using this
    rw [List.cons_append, List.cons_append, cutOpener?, hc, ht]
    rfl

theorem not_opener_infix_of_cutOpener? (h : cutOpener? text = some (before, opener, rest)) {o : Text}
    (ho : IsOpener o) : ¬ o <:+: before := by
  rintro ⟨u, v, rfl⟩
  have hl := length_le_of_cutOpener? h ho (u := u) (v := v ++ opener ++ rest)
    (by rw [cutOpener?_eq_some h]; simp)
  have := List.length_pos_iff.2 ho.ne_nil
  simp only [List.length_append] at hl
  omega

theorem headerAndBody?_eq_some {header body : Text} (h : headerAndBody? rest = some (header, body)) :
    rest = header ++ '{' :: body ∧ '{' ∉ header ∧ hasOpener header = false := by
  unfold headerAndBody? at h
  split at h
  · cases h
  · next hd bd hc =>
    split at h
    · cases h
    · next hn =>
      obtain ⟨rfl, rfl⟩ := Prod.mk.inj (Option.some.inj h)
      refine ⟨by simpa using Text.cut?_eq_some hc, fun hm => ?_, by simpa using hn⟩
      obtain ⟨u, v, hd⟩ := List.append_of_mem hm
      exact Text.not_infix_of_cut? (List.cons_ne_nil _ _) hc ⟨u, v, by simp [hd]⟩

theorem headerAndBody?_append {header body : Text} (hb : '{' ∉ header)
    (ho : hasOpener header = false) :
    headerAndBody? (header ++ '{' :: body) = some (header, body) := by
  rw [headerAndBody?, Text.cut?_singleton hb]
  exact if_neg (by simp [ho])

end RazorVash.Loop
