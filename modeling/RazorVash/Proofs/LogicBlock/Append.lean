import RazorVash.Proofs.Draft.Closing
import RazorVash.Proofs.Text.Seam

namespace RazorVash

theorem Mark.unspanned_append {mark block rest v : Text} (m : Mark) (hp : '+' ∉ mark)
    (hs : Text.Unspanned mark rest v) :
    Text.Unspanned mark (block ++ m.placeholder ++ rest) v := by
  have hLast : block ++ m.placeholder ++ rest =
      (block ++ '+' :: '+' :: (m.word ++ ['+'])) ++ '+' :: rest := by simp [Mark.placeholder]
  rw [hLast]
  exact hs.append_cons hp

namespace Brace

variable {text marked placeholder : Text} {i : Int}

/-- Marking the end of a block changes nothing after it, and nothing after it matters. -/
theorem exists_of_markMatchingClose (hp : placeholder ≠ [])
    (h : markMatchingClose text 0 placeholder = .ok (marked, i)) :
    ∃ block rest, rest <:+ text ∧ marked = block ++ placeholder ++ rest ∧
      ∀ v, ∃ j, markMatchingClose (text ++ v) 0 placeholder = .ok (marked ++ v, j) := by
  obtain ⟨n, hn⟩ := closed_of_markMatchingClose h
  obtain ⟨u, rest, rfl, rfl, hAny⟩ := exists_of_closerOffset hn
  have hMarked (v : Text) := markMatchingClose_zero placeholder (hAny v)
  obtain ⟨j, hj⟩ := hMarked rest
  rw [hj] at h
  obtain ⟨rfl, -⟩ := Prod.mk.inj (Except.ok.inj h)
  have hSplit : ∃ block, Text.replaceAllButLast placeholder ['}']
      (Text.replaceAll ['}'] placeholder (u ++ ['}'])) = block ++ placeholder := by
    rw [Text.replaceAll_singleton, List.flatMap_append, List.flatMap_singleton, if_pos rfl,
      Text.replaceAllButLast_append_self hp]
    exact ⟨_, rfl⟩
  obtain ⟨block, hBlock⟩ := hSplit
  refine ⟨block, rest, ⟨u ++ ['}'], by simp⟩, by rw [hBlock], fun v => ?_⟩
  obtain ⟨k, hk⟩ := hMarked (rest ++ v)
  exact ⟨k, by simpa using hk⟩

end Brace

namespace LogicBlock

variable {u v before rest marked guarded guarded' : Text} {marks : Placeholders} {limit limit' : Nat}
  {i : Int}

theorem protectWithin_of_cut?_eq_none (h : Text.cut? opener u = none) :
    protectWithin marks limit u = some (.ok u) := by
  cases limit <;> rw [protectWithin, h]

theorem protectWithin_of_marked (hCut : Text.cut? opener u = some (before, rest))
    (hMark : Brace.markMatchingClose rest 0 marks.closer = .ok (marked, i))
    (h : protectWithin marks limit marked = some (.ok guarded)) :
    protectWithin marks (limit + 1) u = some (.ok (before ++ marks.opener ++ guarded)) := by
  rw [protectWithin, hCut]
  simp only [hMark, h]
  rfl

theorem exists_of_protectWithin (hCut : Text.cut? opener u = some (before, rest))
    (h : protectWithin marks limit u = some (.ok guarded)) :
    ∃ limit' marked i guarded', limit = limit' + 1 ∧
      Brace.markMatchingClose rest 0 marks.closer = .ok (marked, i) ∧
      protectWithin marks limit' marked = some (.ok guarded') ∧
      guarded = before ++ marks.opener ++ guarded' := by
  cases limit with
  | zero =>
    rw [protectWithin, hCut] at h
    cases h
  | succ limit =>
    rw [protectWithin, hCut] at h
    dsimp only at h
    split at h
    · cases h
    · next marked i hMark =>
      obtain ⟨result, hResult, hOk⟩ := Option.map_eq_some_iff.1 h
      obtain ⟨guarded', rfl, rfl⟩ := Outcome.map_eq_ok hOk
      exact ⟨limit, marked, i, guarded', rfl, hMark, hResult, rfl⟩

theorem protectWithin_of_le {result : Except MalformedBlock Text}
    (h : protectWithin marks limit u = some result) (hLimit : limit ≤ limit') :
    protectWithin marks limit' u = some result := by
  induction limit' generalizing limit u result with
  | zero => rwa [Nat.le_zero.1 hLimit] at h
  | succ limit' ih =>
    rcases hCut : Text.cut? opener u with _ | ⟨before, rest⟩
    · rw [protectWithin_of_cut?_eq_none hCut] at h ⊢
      exact h
    · cases limit with
      | zero =>
        rw [protectWithin, hCut] at h
        cases h
      | succ limit =>
        rw [protectWithin, hCut] at h ⊢
        dsimp only at h ⊢
        cases hMark : Brace.markMatchingClose rest 0 marks.closer with
        | error e =>
          rw [hMark] at h
          exact h
        | ok parts =>
          rw [hMark] at h
          obtain ⟨next, hNext, rfl⟩ := Option.map_eq_some_iff.1 h
          exact Option.map_eq_some_iff.2 ⟨next, ih hNext (Nat.le_of_succ_le_succ hLimit), rfl⟩

theorem protectWithin_append_right (hu : ¬ opener <:+: u) (hs : Text.Unspanned opener u v)
    (h : protectWithin marks limit v = some (.ok guarded)) :
    protectWithin marks limit (u ++ v) = some (.ok (u ++ guarded)) := by
  rcases hCut : Text.cut? opener v with _ | ⟨before, rest⟩
  · rw [protectWithin_of_cut?_eq_none hCut] at h
    obtain rfl : v = guarded := by simpa using h
    apply protectWithin_of_cut?_eq_none
    rw [Text.cut?_eq_none] at hCut ⊢
    exact fun hi => (hs.infix_append hi).elim hu hCut
  · obtain ⟨limit, marked, i, guarded', rfl, hMark, hNext, rfl⟩ := exists_of_protectWithin hCut h
    have := protectWithin_of_marked (Text.cut?_append_right hu hs hCut) hMark hNext
    simpa using this

theorem protectWithin_append (hs : Text.Unspanned opener u v)
    (hu : protectWithin .standard limit u = some (.ok guarded))
    (hv : protectWithin .standard limit' v = some (.ok guarded')) :
    protectWithin .standard (limit + limit') (u ++ v) = some (.ok (guarded ++ guarded')) := by
  induction limit generalizing u guarded with
  | zero =>
    rcases hCut : Text.cut? opener u with _ | ⟨before, rest⟩
    · rw [protectWithin_of_cut?_eq_none hCut] at hu
      obtain rfl : u = guarded := by simpa using hu
      rw [Nat.zero_add]
      exact protectWithin_append_right (Text.cut?_eq_none.1 hCut) hs hv
    · obtain ⟨_, _, _, _, hLimit, -⟩ := exists_of_protectWithin hCut hu
      cases hLimit
  | succ limit ih =>
    rcases hCut : Text.cut? opener u with _ | ⟨before, rest⟩
    · rw [protectWithin_of_cut?_eq_none hCut] at hu
      obtain rfl : u = guarded := by simpa using hu
      exact protectWithin_of_le (protectWithin_append_right (Text.cut?_eq_none.1 hCut) hs hv)
        (Nat.le_add_left _ _)
    · obtain ⟨_, marked, i, guarded, hLimit, hMark, hNext, rfl⟩ := exists_of_protectWithin hCut hu
      obtain rfl := Nat.succ.inj hLimit
      obtain ⟨block, rest', hRest, rfl, hAny⟩ :=
        Brace.exists_of_markMatchingClose (List.cons_ne_nil _ _) hMark
      obtain ⟨j, hj⟩ := hAny v
      -- what is left of the first text ends as it did
      have hSuffix : rest' <:+ u := by
        rw [Text.cut?_eq_some hCut]
        exact hRest.trans (List.suffix_append _ _)
      have hs' : Text.Unspanned opener (block ++ Placeholders.standard.closer ++ rest') v :=
        Mark.unspanned_append .logicCloser (by decide) (hs.of_isSuffix hSuffix)
      have := protectWithin_of_marked (Text.cut?_append_left hCut) hj (ih hs' hNext)
      rw [Nat.add_right_comm, this]
      simp

/-- A block that is protected takes its opening brace out of what is left. -/
theorem count_left_lt (hCloser : '{' ∉ marks.closer)
    (hCut : Text.cut? opener u = some (before, rest))
    (hMark : Brace.markMatchingClose rest 0 marks.closer = .ok (marked, i)) :
    marked.count '{' < u.count '{' := by
  have hMarked := Brace.count_openers_markMatchingClose hCloser hMark
  rw [Text.cut?_eq_some hCut]
  simp only [opener, List.count_append, List.count_cons_self,
    List.count_cons_of_ne (show '@' ≠ '{' by decide), List.count_nil]
  omega

theorem exists_protectWithin_eq_some (hCloser : '{' ∉ marks.closer) (h : u.count '{' ≤ limit) :
    ∃ result, protectWithin marks limit u = some result := by
  induction limit generalizing u with
  | zero =>
    have hNone : Text.cut? opener u = none := by
      apply Text.cut?_eq_none.2
      apply Text.not_infix_of_notMem (c := '{') (by decide)
      exact List.count_eq_zero.1 (Nat.le_zero.1 h)
    exact ⟨_, protectWithin_of_cut?_eq_none hNone⟩
  | succ limit ih =>
    rcases hCut : Text.cut? opener u with _ | ⟨before, rest⟩
    · exact ⟨_, protectWithin_of_cut?_eq_none hCut⟩
    · rw [protectWithin, hCut]
      dsimp only
      cases hMark : Brace.markMatchingClose rest 0 marks.closer with
      | error e => exact ⟨_, rfl⟩
      | ok parts =>
        obtain ⟨marked, i⟩ := parts
        have hFewer := Nat.lt_of_lt_of_le (count_left_lt hCloser hCut hMark) h
        obtain ⟨result, hResult⟩ := ih (Nat.le_of_lt_succ hFewer)
        dsimp only
        rw [hResult]
        exact ⟨_, rfl⟩

/-- The pass ends within as many blocks as there are opening braces. -/
theorem protectWithin_protect (hCloser : '{' ∉ marks.closer) (h : u.count '{' ≤ limit) :
    protectWithin marks limit u = some (protect marks u) := by
  obtain ⟨result, hResult⟩ := exists_protectWithin_eq_some hCloser (Nat.le_refl (u.count '{'))
  rw [protect, protectWithin_of_le hResult List.count_le_length]
  exact protectWithin_of_le hResult h

theorem protect_of_cut?_eq_none (h : Text.cut? opener u = none) : protect marks u = .ok u := by
  rw [protect, protectWithin_of_cut?_eq_none h]
  rfl

/-- The first block and what is left after it. -/
theorem protect_of_cut? (hCloser : '{' ∉ marks.closer)
    (hCut : Text.cut? opener u = some (before, rest)) :
    protect marks u =
      match Brace.markMatchingClose rest 0 marks.closer with
      | .error e => .error e
      | .ok (marked, _) => (protect marks marked).map (before ++ marks.opener ++ ·) := by
  have hLength : u.count '{' ≤ u.length + 1 := Nat.le_succ_of_le List.count_le_length
  have h := protectWithin_protect hCloser hLength
  rw [protectWithin, hCut] at h
  dsimp only at h
  cases hMark : Brace.markMatchingClose rest 0 marks.closer with
  | error e =>
    rw [hMark] at h
    exact (Option.some.inj h).symm
  | ok parts =>
    obtain ⟨marked, i⟩ := parts
    have hFewer := count_left_lt hCloser hCut hMark
    have hLimit : marked.count '{' ≤ u.length :=
      Nat.le_of_lt (Nat.lt_of_lt_of_le hFewer List.count_le_length)
    rw [hMark] at h
    dsimp only at h
    rw [protectWithin_protect hCloser hLimit] at h
    exact (Option.some.inj h).symm

theorem protectWithin_of_protect (h : protect .standard u = .ok guarded) :
    protectWithin .standard u.length u = some (.ok guarded) := by
  rw [protectWithin_protect (by decide) List.count_le_length, h]

theorem protect_append (hs : Text.Unspanned opener u v) (hu : protect .standard u = .ok guarded)
    (hv : protect .standard v = .ok guarded') :
    protect .standard (u ++ v) = .ok (guarded ++ guarded') := by
  have h := protectWithin_append hs (protectWithin_of_protect hu) (protectWithin_of_protect hv)
  rw [protect, List.length_append, h]
  rfl

end LogicBlock

end RazorVash
