import RazorVash.Proofs.Text.Infix

namespace RazorVash.Text

variable {old new text rest : Text} {c : Char}

theorem replaceAll_of_not_isInfix (ho : old ≠ []) (h : ¬ old <:+: text) :
    replaceAll old new text = text := by
  rw [replaceAll, dif_neg ho]
  split
  · rfl
  · next hc => exact absurd ⟨_, _, (cut?_eq_some hc).symm⟩ h

theorem replaceAll_nil (ho : old ≠ []) : replaceAll old new [] = [] :=
  replaceAll_of_not_isInfix ho (by simpa using ho)

theorem replaceAll_of_cut? (ho : old ≠ []) {before : Text} (h : cut? old text = some (before, rest)) :
    replaceAll old new text = before ++ new ++ replaceAll old new rest := by
  rw [replaceAll, dif_neg ho]
  split
  · next hn => rw [h] at hn; cases hn
  · next b r hs =>
    rw [h] at hs
    obtain ⟨rfl, rfl⟩ : before = b ∧ rest = r := by simpa using hs
    rfl

theorem replaceAll_cons_of_not_isPrefix (h : ¬ old <+: c :: text) :
    replaceAll old new (c :: text) = c :: replaceAll old new text := by
  have ho : old ≠ [] := by rintro rfl; exact h List.nil_prefix
  cases hc : cut? old text with
  | none =>
    have ht : ¬ old <:+: text := cut?_eq_none.1 hc
    rw [replaceAll_of_not_isInfix ho ht, replaceAll_of_not_isInfix ho]
    rw [List.infix_cons_iff]
    exact not_or.2 ⟨h, ht⟩
  | some s =>
    have hs : cut? old (c :: text) = some (c :: s.1, s.2) := by
      rw [cut?_cons_of_not_isPrefix h, hc]; rfl
    rw [replaceAll_of_cut? ho hs, replaceAll_of_cut? ho hc]
    rfl

theorem replaceAll_append_self (ho : old ≠ []) :
    replaceAll old new (old ++ rest) = new ++ replaceAll old new rest := by
  have hc : cut? old ([] ++ old ++ rest) = some ([], rest) := cut?_append (by simp)
  simpa using replaceAll_of_cut? ho hc

theorem replaceAll_append_of_head {u : Text} (h : c ∉ u) :
    replaceAll (c :: old) new (u ++ text) = u ++ replaceAll (c :: old) new text := by
  induction u with
  | nil => rfl
  | cons d u ih =>
    have hd : ¬ (c :: old) <+: d :: (u ++ text) := by
      intro hp
      obtain ⟨rfl, -⟩ := List.cons_prefix_cons.1 hp
      exact h List.mem_cons_self
    rw [List.cons_append, replaceAll_cons_of_not_isPrefix hd,
      ih (fun hu => h (List.mem_cons_of_mem _ hu))]
    rfl

theorem replaceAll_singleton (text : Text) :
    replaceAll [c] new text = text.flatMap fun d => if d = c then new else [d] := by
  induction text with
  | nil => exact replaceAll_nil (List.cons_ne_nil _ _)
  | cons d text ih =>
    by_cases hd : d = c
    · subst hd
      have : replaceAll [d] new ([d] ++ text) = new ++ replaceAll [d] new text :=
        replaceAll_append_self (List.cons_ne_nil d [])
      simpa [ih] using this
    · rw [replaceAll_cons_of_not_isPrefix, ih, List.flatMap_cons, if_neg hd]
      · rfl
      · rintro ⟨v, hv⟩
        exact hd (List.cons.inj hv).1.symm

/-- `new` keeps the occurrences of `p` on its two sides apart. -/
def Separates (new p : Text) : Prop := ∀ u v, p <:+: u ++ new ++ v → p <:+: u ∨ p <:+: v

theorem separates_of_apart {p : Text} (hn : new ≠ []) (h : Apart new p) : Separates new p := by
  intro u v hp
  induction new generalizing u with
  | nil => exact absurd rfl hn
  | cons d new ih =>
    have hp' : p <:+: u ++ d :: (new ++ v) := by simpa using hp
    rcases (infix_append_cons (h d List.mem_cons_self)).1 hp' with hu | hv
    · exact .inl hu
    · by_cases hne : new = []
      · subst hne
        exact .inr (by simpa using hv)
      · have := ih hne (fun e he => h e (List.mem_cons_of_mem _ he)) [] (by simpa using hv)
        rcases this with h₁ | h₂
        · exact .inl (by rw [List.infix_nil.1 h₁]; exact List.nil_infix)
        · exact .inr h₂

theorem infix_of_infix_replaceAll {p : Text} (ho : old ≠ []) (hs : Separates new p)
    (h : p <:+: replaceAll old new text) : p <:+: text := by
  fun_induction replaceAll old new text with
  | case1 => contradiction
  | case2 => exact h
  | case3 text _ before rest hc ih =>
    rw [cut?_eq_some hc]
    rcases hs _ _ h with hb | hr
    · exact List.infix_append_of_infix_left (List.infix_append_of_infix_left hb)
    · exact List.infix_append_of_infix_right (ih hr)

theorem not_infix_replaceAll (ho : old ≠ []) (hs : Separates new old) (text : Text) :
    ¬ old <:+: replaceAll old new text := by
  fun_induction replaceAll old new text with
  | case1 => contradiction
  | case2 text _ hc => exact cut?_eq_none.1 hc
  | case3 text _ before rest hc ih =>
    intro h
    rcases hs _ _ h with hb | hr
    · exact not_infix_of_cut? ho hc hb
    · exact ih hr

theorem cutLast?_eq_none_of_length_lt {mark : Text} (h : text.length < mark.length) :
    cutLast? mark text = none := by
  cases hc : cutLast? mark text with
  | none => rfl
  | some s =>
    have hs : text = s.1 ++ mark ++ s.2 := cutLast?_eq_some hc
    have := congrArg List.length hs
    simp only [List.length_append] at this
    omega

theorem cutLast?_eq_none {mark : Text} : cutLast? mark text = none ↔ ¬ mark <:+: text := by
  induction text with
  | nil => simp [cutLast?, after?_eq_none]
  | cons c text ih =>
    rw [cutLast?, List.infix_cons_iff, not_or, ← ih, ← after?_eq_none]
    cases cutLast? mark text with
    | none => simp
    | some s => simp

theorem notMem_of_cutLast? {before : Text} (h : cutLast? [c] text = some (before, rest)) :
    c ∉ rest := by
  induction text generalizing before with
  | nil => simp [cutLast?, after?] at h
  | cons d text ih =>
    rw [cutLast?] at h
    split at h
    · next b r hs =>
      obtain ⟨-, rfl⟩ := Prod.mk.inj (Option.some.inj h)
      exact ih hs
    · next hn =>
      obtain ⟨r, hr, hs⟩ := Option.map_eq_some_iff.1 h
      obtain ⟨-, rfl⟩ := Prod.mk.inj hs
      obtain ⟨rfl, rfl⟩ := List.cons.inj (after?_eq_some.1 hr)
      intro hm
      obtain ⟨u, v, rfl⟩ := List.append_of_mem hm
      exact cutLast?_eq_none.1 hn ⟨u, v, by simp⟩

theorem cutLast?_append_self {mark : Text} (hm : mark ≠ []) (before : Text) :
    cutLast? mark (before ++ mark) = some (before, []) := by
  induction before with
  | nil =>
    obtain ⟨c, mark, rfl⟩ := List.exists_cons_of_ne_nil hm
    have ha : after? (c :: mark) (c :: mark) = some [] := after?_eq_some.2 (by simp)
    simp [cutLast?, cutLast?_eq_none_of_length_lt, ha]
  | cons c before ih => simp [cutLast?, ih]

theorem replaceAllButLast_append_self {mark : Text} (hm : mark ≠ []) (new before : Text) :
    replaceAllButLast mark new (before ++ mark) = replaceAll mark new before ++ mark := by
  simp [replaceAllButLast, cutLast?_append_self hm]

end RazorVash.Text
