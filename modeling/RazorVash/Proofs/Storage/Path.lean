import RazorVash.Storage.Path

namespace RazorVash.Path

variable {text segment : Text} {segments : List Text} {c : Char}

def IsSegment (segment : Text) : Prop := segment ≠ [] ∧ segment ≠ ['.'] ∧ '/' ∉ segment

theorem mem_of_mem_splitOn (h : segment ∈ List.splitOn '/' text) (hc : c ∈ segment) :
    c ∈ text ∧ c ≠ '/' := by
  induction text generalizing segment with
  | nil =>
    rw [List.splitOn_nil, List.mem_singleton] at h
    rw [h] at hc
    cases hc
  | cons d text ih =>
    rw [List.splitOn_cons_eq_if_modifyHead] at h
    split at h
    · rcases List.mem_cons.1 h with rfl | h
      · cases hc
      · exact ⟨List.mem_cons_of_mem _ (ih h hc).1, (ih h hc).2⟩
    · next hd =>
      obtain ⟨first, more, hSplit⟩ := List.exists_cons_of_ne_nil (List.splitOn_ne_nil '/' text)
      rw [hSplit, List.modifyHead_cons] at h
      have hOld : ∀ s ∈ first :: more, c ∈ s → c ∈ text ∧ c ≠ '/' := fun s hs => ih (hSplit ▸ hs)
      rcases List.mem_cons.1 h with rfl | h
      · rcases List.mem_cons.1 hc with rfl | hc
        · exact ⟨List.mem_cons_self, by simpa using hd⟩
        · have := hOld first List.mem_cons_self hc
          exact ⟨List.mem_cons_of_mem _ this.1, this.2⟩
      · have := hOld segment (List.mem_cons_of_mem _ h) hc
        exact ⟨List.mem_cons_of_mem _ this.1, this.2⟩

theorem isSegment_of_mem (h : segment ∈ (ofText text).segments) : IsSegment segment := by
  simp only [ofText, List.mem_filter, decide_eq_true_eq] at h
  exact ⟨h.2.1, h.2.2, fun hs => (mem_of_mem_splitOn h.1 hs).2 rfl⟩

theorem rootOf_of_head (h : text.head? ≠ some '/') : rootOf text = [] := by
  unfold rootOf
  split <;> simp_all

theorem rootOf_slash (h : text.head? ≠ some '/') : rootOf ('/' :: text) = ['/'] := by
  unfold rootOf
  split <;> simp_all

theorem rootOf_two_slashes (h : text.head? ≠ some '/') :
    rootOf ('/' :: '/' :: text) = ['/', '/'] := by
  rw [rootOf]
  rintro rest rfl
  exact h rfl

theorem rootOf_cases (text : Text) :
    rootOf text = [] ∨ rootOf text = ['/'] ∨ rootOf text = ['/', '/'] := by
  unfold rootOf
  split <;> simp

theorem head?_join (h : ∀ segment ∈ segments, IsSegment segment) :
    (Text.join ['/'] segments).head? ≠ some '/' := by
  cases segments with
  | nil => simp [Text.join]
  | cons segment segments =>
    obtain ⟨hNe, -, hSlash⟩ := h segment List.mem_cons_self
    obtain ⟨c, rest, rfl⟩ := List.exists_cons_of_ne_nil hNe
    have hc : c ≠ '/' := fun he => hSlash (he ▸ List.mem_cons_self)
    cases segments <;> simpa [Text.join, List.intercalate_cons_cons] using hc

theorem segments_ofText_join (h : ∀ segment ∈ segments, IsSegment segment) :
    (ofText (Text.join ['/'] segments)).segments = segments := by
  cases segments with
  | nil => rfl
  | cons segment more =>
    have hSplit : List.splitOn '/' (Text.join ['/'] (segment :: more)) = segment :: more :=
      List.splitOn_intercalate '/' (fun s hs => (h s hs).2.2) (List.cons_ne_nil _ _)
    have hKept : ∀ s ∈ segment :: more, decide (s ≠ [] ∧ s ≠ ['.']) = true :=
      fun s hs => decide_eq_true ⟨(h s hs).1, (h s hs).2.1⟩
    rw [ofText, hSplit, List.filter_eq_self.2 hKept]

theorem segments_ofText_slash (text : Text) :
    (ofText ('/' :: text)).segments = (ofText text).segments := by
  have hSplit : List.splitOn '/' ('/' :: text) = [] :: List.splitOn '/' text := by
    rw [List.splitOn_cons_eq_if_modifyHead, if_pos (by decide)]
  simp only [ofText, hSplit]
  rw [List.filter_cons_of_neg (by decide)]

theorem ofText_root_join {root : Text} (hRoot : root = [] ∨ root = ['/'] ∨ root = ['/', '/'])
    (h : ∀ segment ∈ segments, IsSegment segment) :
    ofText (root ++ Text.join ['/'] segments) = ⟨root, segments⟩ := by
  have hHead := head?_join h
  have hSegments := segments_ofText_join h
  have hParts (path : Path) : path = ⟨path.root, path.segments⟩ := rfl
  rw [hParts (ofText _)]
  rcases hRoot with rfl | rfl | rfl
  · rw [List.nil_append, hSegments, ofText, rootOf_of_head hHead]
  · rw [List.singleton_append, segments_ofText_slash, hSegments, ofText, rootOf_slash hHead]
  · rw [List.cons_append, List.singleton_append, segments_ofText_slash, segments_ofText_slash,
      hSegments, ofText, rootOf_two_slashes hHead]

/-- Reading the text of a path that was read gives the path again. -/
theorem ofText_render_ofText (text : Text) : ofText (ofText text).render = ofText text := by
  have hSegments : ∀ segment ∈ (ofText text).segments, IsSegment segment :=
    fun _ => isSegment_of_mem
  have hRead := ofText_root_join (rootOf_cases text) hSegments
  have hPath : (⟨rootOf text, (ofText text).segments⟩ : Path) = ofText text := rfl
  rw [hPath] at hRead
  unfold render
  split
  · next hEmpty =>
    have hEmpty' : rootOf text ++ Text.join ['/'] (ofText text).segments = [] := hEmpty
    rw [hEmpty'] at hRead
    rw [← hRead]
    decide
  · exact hRead

theorem mem_join (h : c ∈ Text.join ['/'] segments) : c = '/' ∨ ∃ segment ∈ segments, c ∈ segment := by
  induction segments with
  | nil => simp [Text.join] at h
  | cons segment more ih =>
    cases more with
    | nil =>
      have hc : c ∈ segment := by simpa [Text.join] using h
      exact .inr ⟨segment, List.mem_cons_self, hc⟩
    | cons next more =>
      rw [Text.join, List.intercalate_cons_cons, List.mem_append, List.mem_append] at h
      rcases h with (h | h) | h
      · exact .inr ⟨segment, List.mem_cons_self, h⟩
      · exact .inl (List.mem_singleton.1 h)
      · rcases ih h with h | ⟨other, ho, hc⟩
        · exact .inl h
        · exact .inr ⟨other, List.mem_cons_of_mem _ ho, hc⟩

theorem mem_render_ofText (h : c ∈ (ofText text).render) : c ∈ text ∨ c = '/' ∨ c = '.' := by
  unfold render at h
  split at h
  · exact .inr (.inr (List.mem_singleton.1 h))
  · rcases List.mem_append.1 h with h | h
    · have hRoot : ∀ c ∈ rootOf text, c = '/' := by
        rcases rootOf_cases text with hr | hr | hr <;> simp [hr]
      exact .inr (.inl (hRoot c h))
    · rcases mem_join h with h | ⟨segment, hs, hc⟩
      · exact .inr (.inl h)
      · exact .inl (mem_of_mem_splitOn (List.mem_filter.1 hs).1 hc).1

end RazorVash.Path
