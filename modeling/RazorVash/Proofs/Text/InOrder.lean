import RazorVash.Proofs.Text.Seam

namespace RazorVash.Text

variable {p old new text u v : Text} {ps qs : List Text}

/-- The texts `ps` occur in this order without overlap. -/
def InOrder : (ps : List Text) → Text → Prop
  | [], _ => True
  | p :: ps, text => ∃ u v, text = u ++ v ∧ p <:+: u ∧ InOrder ps v

theorem inOrder_singleton : InOrder [p] text ↔ p <:+: text := by
  constructor
  · rintro ⟨u, v, rfl, hp, -⟩
    exact List.infix_append_of_infix_left hp
  · exact fun hp => ⟨text, [], (List.append_nil _).symm, hp, trivial⟩

theorem InOrder.append_right (h : InOrder ps u) (v : Text) : InOrder ps (u ++ v) := by
  induction ps generalizing u with
  | nil => trivial
  | cons p ps ih =>
    obtain ⟨x, y, rfl, hp, hps⟩ := h
    exact ⟨x, y ++ v, List.append_assoc x y v, hp, ih hps⟩

theorem InOrder.append_left (u : Text) (h : InOrder ps v) : InOrder ps (u ++ v) := by
  cases ps with
  | nil => trivial
  | cons p ps =>
    obtain ⟨x, y, rfl, hp, hps⟩ := h
    exact ⟨u ++ x, y, (List.append_assoc u x y).symm, List.infix_append_of_infix_right hp, hps⟩

theorem InOrder.of_infix (h : InOrder ps u) (hu : u <:+: v) : InOrder ps v := by
  obtain ⟨a, b, rfl⟩ := hu
  exact (h.append_left a).append_right b

theorem InOrder.append (hu : InOrder ps u) (hv : InOrder qs v) : InOrder (ps ++ qs) (u ++ v) := by
  induction ps generalizing u with
  | nil => exact hv.append_left u
  | cons p ps ih =>
    obtain ⟨x, y, rfl, hp, hps⟩ := hu
    exact ⟨x, y ++ v, List.append_assoc x y v, hp, ih hps⟩

theorem InOrder.infix_of_mem (h : InOrder ps text) (hp : p ∈ ps) : p <:+: text := by
  induction ps generalizing text with
  | nil => cases hp
  | cons q ps ih =>
    obtain ⟨x, y, rfl, hq, hps⟩ := h
    rcases List.mem_cons.1 hp with rfl | hp
    · exact List.infix_append_of_infix_left hq
    · exact List.infix_append_of_infix_right (ih hps hp)

theorem InOrder.exists_split (hs : ∀ p ∈ ps, Separates new p) (h : InOrder ps (u ++ new ++ v)) :
    ∃ ps₁ ps₂, ps = ps₁ ++ ps₂ ∧ InOrder ps₁ u ∧ InOrder ps₂ v := by
  induction ps generalizing u with
  | nil => exact ⟨[], [], rfl, trivial, trivial⟩
  | cons p ps ih =>
    have hp := hs p List.mem_cons_self
    have hps : ∀ q ∈ ps, Separates new q := fun q hq => hs q (List.mem_cons_of_mem _ hq)
    obtain ⟨x, y, hxy, hx, hy⟩ := h
    rw [List.append_assoc] at hxy
    rcases List.append_eq_append_iff.1 hxy with ⟨x', rfl, hv⟩ | ⟨u', rfl, hu⟩
    · -- the first text of the series may reach over the place of `new`
      rcases List.append_eq_append_iff.1 hv with ⟨v', rfl, rfl⟩ | ⟨n, rfl, rfl⟩
      · rw [← List.append_assoc] at hx
        rcases hp _ _ hx with hx | hx
        · exact ⟨[p], ps, rfl, inOrder_singleton.2 hx, hy.append_left v'⟩
        · exact ⟨[], p :: ps, rfl, trivial, v', y, rfl, hx, hy⟩
      · have hFirst : p <:+: u := by
          have hLonger : p <:+: u ++ (x' ++ n) ++ [] := by
            rw [List.append_nil, ← List.append_assoc]
            exact List.infix_append_of_infix_left hx
          rcases hp _ _ hLonger with hu | hNil
          · exact hu
          · rw [List.infix_nil.1 hNil]
            exact List.nil_infix
        have hRest : InOrder ps ([] ++ (x' ++ n) ++ v) := by
          rw [List.nil_append, List.append_assoc]
          exact hy.append_left x'
        obtain ⟨ps₁, ps₂, rfl, h₁, h₂⟩ := ih hps hRest
        exact ⟨[p], ps₁ ++ ps₂, rfl, inOrder_singleton.2 hFirst, by simpa using h₁.append h₂⟩
    · have hRest : InOrder ps (u' ++ new ++ v) := by
        rw [List.append_assoc, ← hu]
        exact hy
      obtain ⟨ps₁, ps₂, rfl, h₁, h₂⟩ := ih hps hRest
      exact ⟨p :: ps₁, ps₂, rfl, ⟨x, u', rfl, hx, h₁⟩, h₂⟩

theorem inOrder_of_replaceAll (ho : old ≠ []) (hs : ∀ p ∈ ps, Separates new p)
    (h : InOrder ps (replaceAll old new text)) : InOrder ps text := by
  fun_induction replaceAll old new text generalizing ps with
  | case1 => contradiction
  | case2 => exact h
  | case3 text _ before rest hc ih =>
    obtain ⟨ps₁, ps₂, rfl, h₁, h₂⟩ := h.exists_split hs
    have h₂ := ih (fun p hp => hs p (List.mem_append_right _ hp)) h₂
    rw [cut?_eq_some hc]
    exact (h₁.append_right old).append h₂

end RazorVash.Text
