import RazorVash.Proofs.Draft.Opening

namespace RazorVash.Draft
open Piece

variable {d d₁ d₂ : Draft} {p q : Piece} {i j n : Nat}

/-- The piece `p` of the draft is what the template has from its character `i` on. -/
def At (d : Draft) (i : Nat) (p : Piece) : Prop :=
  ∃ d₁ d₂, d = d₁ ++ p :: d₂ ∧ (spell Mark.written d₁).length = i

theorem At.le (hp : d.At i p) (hq : d.At j q) (h : i < j) :
    i + (spellPiece Mark.written p).length ≤ j := by
  obtain ⟨a, b, rfl, rfl⟩ := hp
  obtain ⟨a', b', hSplit, rfl⟩ := hq
  rcases List.append_eq_append_iff.1 hSplit with ⟨x, rfl, hx⟩ | ⟨x, rfl, -⟩
  · rcases List.cons_eq_append_iff.1 hx with ⟨rfl, -⟩ | ⟨y, rfl, -⟩
    · simp at h
    · rw [spell_append, spell_cons, List.length_append, List.length_append]
      omega
  · rw [spell_append, List.length_append] at h
    omega

theorem At.eq (hp : d.At i p) (hq : d.At i q) : p = q := by
  obtain ⟨a, b, rfl, rfl⟩ := hp
  obtain ⟨a', b', hSplit, hLength⟩ := hq
  have hNil {x y : Draft}
      (h : (spell Mark.written (x ++ y)).length = (spell Mark.written x).length) : y = [] := by
    refine Classical.byContradiction fun hy => ?_
    have := length_lt_of_append (d := x) Mark.written_ne_nil hy
    omega
  rcases List.append_eq_append_iff.1 hSplit with ⟨x, rfl, hx⟩ | ⟨x, rfl, hx⟩
  · obtain rfl := hNil hLength
    exact (List.cons.inj hx).1
  · obtain rfl := hNil hLength.symm
    exact (List.cons.inj hx).1.symm

theorem At.add_length_le (h : d.At i p) :
    i + (spellPiece Mark.written p).length ≤ (spell Mark.written d).length := by
  obtain ⟨d₁, d₂, rfl, rfl⟩ := h
  rw [spell_append, spell_cons, List.length_append, List.length_append]
  omega

theorem at_zero : At (p :: d) 0 p := ⟨[], d, rfl, rfl⟩

theorem At.cons (h : d.At i q) : At (p :: d) ((spellPiece Mark.written p).length + i) q := by
  obtain ⟨a, b, rfl, rfl⟩ := h
  exact ⟨p :: a, b, rfl, by rw [spell_cons, List.length_append]⟩

/-- A rule for the characters of the template that agrees with a spelling on each piece. -/
theorem flatMap_zipIdx_of_at {f : Char × Nat → Text} {g : Mark → Text}
    (h : ∀ i p, d.At i p →
      ((spellPiece Mark.written p).zipIdx (n + i)).flatMap f = spellPiece g p) :
    ((spell Mark.written d).zipIdx n).flatMap f = spell g d := by
  induction d generalizing n with
  | nil => rfl
  | cons p d ih =>
    have hRest : ((spell Mark.written d).zipIdx (n + (spellPiece Mark.written p).length)).flatMap f =
        spell g d := by
      refine ih fun i q hq => ?_
      rw [Nat.add_assoc]
      exact h _ q hq.cons
    rw [spell_cons, spell_cons, List.zipIdx_append, List.flatMap_append, hRest]
    exact congrArg (· ++ spell g d) (h 0 p at_zero)

/-- `n` is the place of the draft's first character. -/
def loopClosers (n : Nat) : Draft → List Nat
  | [] => []
  | p :: d =>
    (if p = .mark .loopCloser then [n] else []) ++
      loopClosers (n + (spellPiece Mark.written p).length) d

theorem loopClosers_append : loopClosers n (d₁ ++ d₂) =
    loopClosers n d₁ ++ loopClosers (n + (spell Mark.written d₁).length) d₂ := by
  induction d₁ generalizing n with
  | nil => rfl
  | cons p d₁ ih =>
    rw [List.cons_append, loopClosers, ih, loopClosers, spell_cons, List.length_append,
      List.append_assoc, Nat.add_assoc]

theorem mem_loopClosers_cons : i ∈ loopClosers n (p :: d) ↔
    (p = .mark .loopCloser ∧ i = n) ∨
      i ∈ loopClosers (n + (spellPiece Mark.written p).length) d := by
  rw [loopClosers, List.mem_append]
  by_cases hp : p = .mark .loopCloser
  · simp [hp]
  · simp [hp]

theorem lt_of_mem_loopClosers (h : i ∈ loopClosers n d) :
    n ≤ i ∧ i < n + (spell Mark.written d).length := by
  induction d generalizing n with
  | nil => cases h
  | cons p d ih =>
    rw [spell_cons, List.length_append]
    rcases mem_loopClosers_cons.1 h with ⟨rfl, rfl⟩ | h
    · have : (spellPiece Mark.written (.mark .loopCloser)).length = 1 := rfl
      omega
    · have := ih h
      omega

theorem mem_loopClosers_append_right (h : n + (spell Mark.written d₁).length ≤ i) :
    i ∈ loopClosers n (d₁ ++ d₂) ↔ i ∈ loopClosers (n + (spell Mark.written d₁).length) d₂ := by
  rw [loopClosers_append, List.mem_append]
  refine or_iff_right fun hm => ?_
  have := lt_of_mem_loopClosers hm
  omega

theorem loopClosers_eq_nil (h : .mark .loopCloser ∉ d) : loopClosers n d = [] := by
  induction d generalizing n with
  | nil => rfl
  | cons p d ih =>
    rw [List.mem_cons, not_or] at h
    rw [loopClosers, if_neg (fun hp => h.1 hp.symm), ih h.2]
    rfl

theorem mem_loopClosers_mark : i ∈ loopClosers n (d₁ ++ .mark .loopCloser :: d₂) ↔
    i ∈ loopClosers n (d₁ ++ brace :: d₂) ∨ i = n + (spell Mark.written d₁).length := by
  have hMark : spellPiece Mark.written (.mark .loopCloser) = ['}'] := rfl
  have hBrace : spellPiece Mark.written brace = ['}'] := rfl
  rw [loopClosers_append, loopClosers_append, List.mem_append, List.mem_append,
    mem_loopClosers_cons, mem_loopClosers_cons, hMark, hBrace]
  simp only [brace, reduceCtorEq, false_and, false_or, true_and]
  constructor
  · rintro (h | h | h)
    · exact .inl (.inl h)
    · exact .inr h
    · exact .inl (.inr h)
  · rintro ((h | h) | h)
    · exact .inl h
    · exact .inr (.inr h)
    · exact .inr (.inl h)

theorem mem_loopClosers_iff_at :
    i ∈ loopClosers n d ↔ ∃ j, i = n + j ∧ d.At j (.mark .loopCloser) := by
  constructor
  · intro h
    induction d generalizing n with
    | nil => cases h
    | cons p d ih =>
      rcases mem_loopClosers_cons.1 h with ⟨rfl, rfl⟩ | h
      · exact ⟨0, rfl, at_zero⟩
      · obtain ⟨j, rfl, hAt⟩ := ih h
        exact ⟨_, Nat.add_assoc .., hAt.cons⟩
  · rintro ⟨j, rfl, d₁, d₂, rfl, rfl⟩
    rw [loopClosers_append, List.mem_append]
    exact .inr (mem_loopClosers_cons.2 (.inl ⟨rfl, rfl⟩))

theorem flatMap_zipIdx_spell {f : Char × Nat → Text}
    (hCloser : ∀ i ∈ loopClosers n d, f ('}', i) = Loop.callClose)
    (hOther : ∀ c i, n ≤ i → i < n + (spell Mark.written d).length → i ∉ loopClosers n d →
      f (c, i) = [c]) :
    ((spell Mark.written d).zipIdx n).flatMap f = spell Mark.converted d := by
  refine flatMap_zipIdx_of_at fun i p hAt => ?_
  have hKeep (hp : p ≠ .mark .loopCloser) (c : Char) (j : Nat) (hn : n + i ≤ j)
      (hj : j < n + i + (spellPiece Mark.written p).length) : f (c, j) = [c] := by
    have := hAt.add_length_le
    refine hOther c j (by omega) (by omega) fun hm => ?_
    obtain ⟨k, hk, hEnd⟩ := mem_loopClosers_iff_at.1 hm
    obtain hik | rfl : i < k ∨ i = k := by omega
    · have := hAt.le hEnd hik
      omega
    · exact hp (hAt.eq hEnd)
  -- the characters of a piece stay unless it is the end of a loop
  cases p with
  | char c =>
    have := hKeep (by simp) c (n + i) (Nat.le_refl _) (Nat.lt_succ_self _)
    simpa [spellPiece] using this
  | mark m =>
    cases m with
    | logicOpener =>
      have h₁ := hKeep (by simp) '@' (n + i) (Nat.le_refl _) (Nat.lt_add_of_pos_right (by decide))
      have h₂ := hKeep (by simp) '{' (n + i + 1) (Nat.le_succ _) (Nat.lt_succ_self _)
      change f ('@', n + i) ++ (f ('{', n + i + 1) ++ []) = ['@', '{']
      rw [h₁, h₂]
      rfl
    | logicCloser =>
      have := hKeep (by simp) '}' (n + i) (Nat.le_refl _) (Nat.lt_succ_self _)
      change f ('}', n + i) ++ [] = ['}']
      rw [this]
      rfl
    | loopCloser =>
      have := hCloser (n + i) (mem_loopClosers_iff_at.2 ⟨i, rfl, hAt⟩)
      change f ('}', n + i) ++ [] = Loop.callClose
      rw [this, List.append_nil]

end RazorVash.Draft
