import RazorVash.Proofs.Text.Seam
import RazorVash.Template.Normalize

namespace RazorVash.Template

variable {start stop text before inside content rest : Text}

def HasSpan (start stop text : Text) : Prop :=
  ∃ before inside, text = before ++ start ++ inside ∧ stop <:+: inside

/-- The first opening mark leaves most of the text to look for a closing one. -/
theorem hasSpan_iff_cut? :
    HasSpan start stop text ↔ ∃ parts ∈ Text.cut? start text, stop <:+: parts.2 := by
  constructor
  · rintro ⟨before, inside, hText, hStop⟩
    cases hCut : Text.cut? start text with
    | none => exact absurd ⟨before, inside, hText.symm⟩ (Text.cut?_eq_none.1 hCut)
    | some parts =>
      refine ⟨parts, rfl, hStop.trans (List.IsSuffix.isInfix ?_)⟩
      have hLength := Text.length_le_of_cut? hCut hText
      have hFirst := Text.cut?_eq_some hCut
      apply List.suffix_of_suffix_length_le ⟨_, hText.symm⟩ ⟨_, hFirst.symm⟩
      have h₁ := congrArg List.length hText
      have h₂ := congrArg List.length hFirst
      simp only [List.length_append] at h₁ h₂
      omega
  · rintro ⟨parts, hCut, hStop⟩
    exact ⟨parts.1, parts.2, Text.cut?_eq_some hCut, hStop⟩

instance (start stop text : Text) : Decidable (HasSpan start stop text) :=
  decidable_of_iff _ hasSpan_iff_cut?.symm

/-- In the text that these parts make up, the opening mark between `before` and `content` is the
first one, and the closing mark between `content` and `rest` is the nearest one after it. -/
structure FirstSpan (start stop before content rest : Text) : Prop where
  opens : ∀ u v, before ++ start ++ content ++ stop ++ rest = u ++ start ++ v →
    before.length ≤ u.length
  closes : ∀ u v, content ++ stop = u ++ stop ++ v → content.length ≤ u.length

theorem firstSpan_iff : FirstSpan start stop before content rest ↔
    Text.cut? start (before ++ start ++ content ++ stop ++ rest) =
        some (before, content ++ stop ++ rest) ∧
      Text.cut? stop (content ++ stop) = some (content, []) := by
  have hText : before ++ start ++ content ++ stop ++ rest =
      before ++ start ++ (content ++ stop ++ rest) := by simp
  constructor
  · rintro ⟨hOpens, hCloses⟩
    rw [hText] at hOpens ⊢
    refine ⟨Text.cut?_append hOpens, ?_⟩
    have hEnd : content ++ stop = content ++ stop ++ [] := (List.append_nil _).symm
    rw [hEnd] at hCloses ⊢
    exact Text.cut?_append hCloses
  · rintro ⟨hOpens, hCloses⟩
    exact ⟨fun u v hu => Text.length_le_of_cut? hOpens hu,
      fun u v hu => Text.length_le_of_cut? hCloses hu⟩

instance (start stop before content rest : Text) :
    Decidable (FirstSpan start stop before content rest) :=
  decidable_of_iff _ firstSpan_iff.symm

theorem FirstSpan.cut?_stop (h : FirstSpan start stop before content rest) :
    Text.cut? stop (content ++ stop ++ rest) = some (content, rest) :=
  Text.cut?_append_left (firstSpan_iff.1 h).2

theorem deleteSpans_of_cut?_eq_none (hMarks : ¬(start = [] ∧ stop = []))
    (h : Text.cut? start text = none) : deleteSpans start stop text = text := by
  rw [deleteSpans, dif_neg hMarks]
  split
  · rfl
  · next hs =>
    rw [h] at hs
    cases hs

theorem deleteSpans_of_cut? (hMarks : ¬(start = [] ∧ stop = []))
    (hStart : Text.cut? start text = some (before, inside)) :
    deleteSpans start stop text =
      match Text.cut? stop inside with
      | none => text
      | some (_, rest) => before ++ deleteSpans start stop rest := by
  rw [deleteSpans, dif_neg hMarks]
  split
  · next hn =>
    rw [hStart] at hn
    cases hn
  · next hs =>
    rw [hStart] at hs
    cases hs
    split
    · next hn => rw [hn]
    · next hs => rw [hs]

theorem deleteSpans_of_not_hasSpan (hMarks : ¬(start = [] ∧ stop = []))
    (h : ¬ HasSpan start stop text) : deleteSpans start stop text = text := by
  rcases hStart : Text.cut? start text with _ | ⟨before, inside⟩
  · exact deleteSpans_of_cut?_eq_none hMarks hStart
  · have hStop : Text.cut? stop inside = none :=
      Text.cut?_eq_none.2 fun hs => h ⟨before, inside, Text.cut?_eq_some hStart, hs⟩
    rw [deleteSpans_of_cut? hMarks hStart, hStop]

theorem FirstSpan.deleteSpans_eq (hMarks : ¬(start = [] ∧ stop = []))
    (h : FirstSpan start stop before content rest) :
    deleteSpans start stop (before ++ start ++ content ++ stop ++ rest) =
      before ++ deleteSpans start stop rest := by
  rw [deleteSpans_of_cut? hMarks (firstSpan_iff.1 h).1, h.cut?_stop]

theorem markOr_of_ne_nil {mark configured : Text} (h : mark ≠ []) :
    markOr (some mark) configured = mark := by
  obtain ⟨c, mark, rfl⟩ := List.exists_cons_of_ne_nil h
  rfl

/-- Exactly the spans are deleted, and what a span holds decides nothing: with these marks as the ones
to ignore, two templates that differ inside a span alone have the same outcome. -/
theorem ignored_content_irrelevant (options : NormalizerOptions) (start stop : Text)
    (hStart : start ≠ []) (hStop : stop ≠ []) :
    (∀ before content rest, FirstSpan start stop before content rest →
      deleteSpans start stop (before ++ start ++ content ++ stop ++ rest) =
        before ++ deleteSpans start stop rest) ∧
    (∀ text, ¬ HasSpan start stop text → deleteSpans start stop text = text) ∧
    ∀ before content₁ content₂ rest, FirstSpan start stop before content₁ rest →
      FirstSpan start stop before content₂ rest →
      normalize options (before ++ start ++ content₁ ++ stop ++ rest) (some start) (some stop) =
        normalize options (before ++ start ++ content₂ ++ stop ++ rest) (some start) (some stop) := by
  have hMarks : ¬(start = [] ∧ stop = []) := fun h => hStart h.1
  refine ⟨fun before content rest h => h.deleteSpans_eq hMarks,
    fun text h => deleteSpans_of_not_hasSpan hMarks h, ?_⟩
  intro before content₁ content₂ rest h₁ h₂
  simp only [normalize, markOr_of_ne_nil hStart, markOr_of_ne_nil hStop]
  rw [h₁.deleteSpans_eq hMarks, h₂.deleteSpans_eq hMarks]

/-- Marks that overlap themselves and each other, and contents that would each fail. -/
theorem ignored_content_irrelevant_overlap :
    let start := "<!<".toList
    let stop := "!<!".toList
    let before := "a <! @foreach(x in xs) \x7b".toList
    let content₁ := "! @foreach( <!".toList
    let content₂ := " @\x7b @* ".toList
    let rest := "<! b\x7d <!<! c".toList
    (start ≠ [] ∧ stop ≠ [] ∧ FirstSpan start stop before content₁ rest ∧
        FirstSpan start stop before content₂ rest ∧ ¬ HasSpan start stop "<!<! c".toList) ∧
      deleteSpans start stop (before ++ start ++ content₁ ++ stop ++ rest) =
        before ++ deleteSpans start stop rest ∧
      deleteSpans start stop "<!<! c".toList = "<!<! c".toList ∧
      normalize {} (before ++ start ++ content₁ ++ stop ++ rest) (some start) (some stop) =
        normalize {} (before ++ start ++ content₂ ++ stop ++ rest) (some start) (some stop) := by
  intro start stop before content₁ content₂ rest
  have hStart : start ≠ [] := by decide
  have hStop : stop ≠ [] := by decide
  have h₁ : FirstSpan start stop before content₁ rest := by decide +kernel
  have h₂ : FirstSpan start stop before content₂ rest := by decide +kernel
  have hNone : ¬ HasSpan start stop "<!<! c".toList := by decide +kernel
  obtain ⟨hDelete, hKeep, hSame⟩ := ignored_content_irrelevant {} start stop hStart hStop
  exact ⟨⟨hStart, hStop, h₁, h₂, hNone⟩, hDelete before content₁ rest h₁, hKeep _ hNone,
    hSame before content₁ content₂ rest h₁ h₂⟩

end RazorVash.Template
