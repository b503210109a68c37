import RazorVash.Proofs.Naming
import RazorVash.Proofs.Text.Seam

namespace RazorVash.Naming

variable {path type segment : Text} {parts : List Text}

def segments (path : Text) : List Text := List.splitOn '/' (slash path)

/-- All segments but the last, which is the file. -/
def directories (path : Text) : List Text := (segments path).dropLast

theorem backslash_notMem_slash (path : Text) : '\\' ∉ slash path := by
  intro h
  obtain ⟨c, -, hc⟩ := List.mem_map.1 h
  split at hc
  · cases hc
  · next hNot => exact hNot hc

theorem slash_slash (path : Text) : slash (slash path) = slash path :=
  slash_of_notMem (backslash_notMem_slash path)

theorem join_segments (path : Text) : Text.join ['/'] (segments path) = slash path :=
  List.intercalate_splitOn '/'

theorem segments_ne_nil (path : Text) : segments path ≠ [] := List.splitOn_ne_nil '/' _

theorem slash_notMem_of_mem (h : segment ∈ segments path) : '/' ∉ segment :=
  fun hSlash => (Path.mem_of_mem_splitOn h hSlash).2 rfl

theorem join_cons (segment : Text) (h : parts ≠ []) :
    Text.join ['/'] (segment :: parts) = segment ++ '/' :: Text.join ['/'] parts := by
  obtain ⟨next, more, rfl⟩ := List.exists_cons_of_ne_nil h
  rw [Text.join, List.intercalate_cons_cons, List.append_assoc]
  rfl

theorem join_singleton (segment : Text) : Text.join ['/'] [segment] = segment := by
  simp [Text.join]

theorem isPrefix_join_iff (hType : '/' ∉ type) (h : '/' ∉ segment) :
    type ++ ['/'] <+: Text.join ['/'] (segment :: parts) ↔ parts ≠ [] ∧ type = segment := by
  by_cases hLast : parts = []
  · subst hLast
    rw [join_singleton]
    exact iff_of_false (fun hPrefix => h (hPrefix.subset (by simp))) fun hBoth => hBoth.1 rfl
  · rw [join_cons segment hLast]
    constructor
    · rintro ⟨t, ht⟩
      rw [List.append_assoc, List.singleton_append] at ht
      exact ⟨hLast, (Text.append_inj_of_notMem hType h ht).1⟩
    · rintro ⟨-, rfl⟩
      exact ⟨Text.join ['/'] parts, by simp⟩

theorem slashed_infix_join_iff (hType : '/' ∉ type) (h : ∀ s ∈ parts, '/' ∉ s) :
    '/' :: type ++ ['/'] <:+: Text.join ['/'] parts ↔ type ∈ parts.tail.dropLast := by
  induction parts with
  | nil => simp [Text.join]
  | cons segment parts ih =>
    have hSegment := h segment List.mem_cons_self
    have hParts : ∀ s ∈ parts, '/' ∉ s := fun s hs => h s (List.mem_cons_of_mem _ hs)
    cases parts with
    | nil =>
      rw [join_singleton]
      exact iff_of_false (Text.not_infix_of_notMem (by simp) hSegment) (by simp)
    | cons next more =>
      -- the first slash is the one after the first segment
      rw [join_cons segment (List.cons_ne_nil next more), List.cons_append,
        Text.infix_append_of_head hSegment, List.infix_cons_iff, List.cons_prefix_cons,
        isPrefix_join_iff hType (hParts next List.mem_cons_self), ← List.cons_append, ih hParts]
      cases more with
      | nil => simp
      | cons another more => simp

/-- A type between slashes is a directory, though not the first one. -/
theorem slashed_infix_iff (hType : '/' ∉ type) :
    '/' :: type ++ ['/'] <:+: slash path ↔ type ∈ (directories path).tail := by
  rw [← join_segments, slashed_infix_join_iff hType fun _ => slash_notMem_of_mem, directories,
    List.tail_dropLast]

end RazorVash.Naming
