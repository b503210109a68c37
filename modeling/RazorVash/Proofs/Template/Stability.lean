import RazorVash.Proofs.Loop.Order
import RazorVash.Proofs.Loop.Residue
import RazorVash.Proofs.Template.Renames
import RazorVash.Proofs.Template.Span

namespace RazorVash.Template

variable {renames : List Rename} {text out start stop : Text} {ps : List Text}

theorem hasSpan_iff_inOrder : HasSpan start stop text ↔ Text.InOrder [start, stop] text := by
  constructor
  · rintro ⟨before, inside, rfl, hStop⟩
    exact ⟨before ++ start, inside, rfl, ⟨before, [], List.append_nil _⟩,
      Text.inOrder_singleton.2 hStop⟩
  · rintro ⟨u, v, rfl, ⟨a, b, rfl⟩, hStop⟩
    exact ⟨a, b ++ v, List.append_assoc _ _ _,
      List.infix_append_of_infix_right (Text.inOrder_singleton.1 hStop)⟩

theorem not_hasSpan_ignore (h : ¬ HasSpan commentStart commentEnd text) :
    ¬ HasSpan defaultIgnoreStart defaultIgnoreEnd text := by
  rintro ⟨before, inside, rfl, -⟩
  apply h
  have hMark : defaultIgnoreStart = commentStart ++ ("VASH_IGNORE_START".toList ++ commentEnd) := by
    decide +kernel
  refine ⟨before, "VASH_IGNORE_START".toList ++ commentEnd ++ inside, by simp [hMark], ?_⟩
  exact ⟨"VASH_IGNORE_START".toList, inside, rfl⟩

def insertions : List Text :=
  (standardRenames defaultHelpersName).map Prod.snd ++
    [defaultHelpersName ++ ".foreach(".toList, ", function(".toList, " \x7b".toList, Loop.callClose]

/-- The texts that a normalization acts on, openers of loops apart. -/
def targets : List Text :=
  commentStart :: commentEnd :: (standardRenames defaultHelpersName).map Prod.fst

theorem detached_of_mem : ∀ new ∈ insertions, ∀ p ∈ placeholderStem :: targets,
    Text.Detached new p := by
  decide +kernel

theorem strange_of_mem : ∀ p ∈ targets, '.' ∈ p ∨ '*' ∈ p := by
  decide +kernel

theorem separates_rename {r : Rename} (hr : r ∈ standardRenames defaultHelpersName) {p : Text}
    (hp : p ∈ placeholderStem :: targets) : Text.Separates r.2 p :=
  Text.separates_of_detached (detached_of_mem _ (List.mem_append_left _ (List.mem_map_of_mem hr)) p hp)

theorem neutral_of_mem {p : Text} (hp : p ∈ targets) : Loop.Neutral defaultHelpersName p := by
  have hDetached {new : Text} (hn : new ∈ insertions) : Text.Separates new p :=
    Text.separates_of_detached (detached_of_mem new hn p (List.mem_cons_of_mem _ hp))
  refine ⟨hDetached ?_, hDetached ?_, hDetached ?_, hDetached ?_, strange_of_mem p hp⟩ <;>
    exact List.mem_append_right _ (by simp)

theorem normalize_default (text : Text) : normalize {} text none none =
    Loop.convert defaultHelpersName .standard (applyRenames (standardRenames defaultHelpersName)
      (deleteSpans commentStart commentEnd
        (deleteSpans defaultIgnoreStart defaultIgnoreEnd text))) := rfl

theorem inOrder_of_standardRenames (hps : ∀ p ∈ ps, p ∈ placeholderStem :: targets)
    (h : Text.InOrder ps (applyRenames (standardRenames defaultHelpersName) text)) :
    Text.InOrder ps text :=
  inOrder_of_applyRenames old_ne_nil (fun _ hr p hp => separates_rename hr (hps p hp)) h

section Passes
variable (hOk : (Loop.convert defaultHelpersName .standard
  (applyRenames (standardRenames defaultHelpersName) text)).result = .ok out)
include hOk

/-- Renamed text has no stem that was not there before, so its conversion keeps the targets in order. -/
theorem inOrder_renamed_of_outcome (hStem : ¬ placeholderStem <:+: text)
    (hps : ∀ p ∈ ps, p ∈ targets) (h : Text.InOrder ps out) :
    Text.InOrder ps (applyRenames (standardRenames defaultHelpersName) text) := by
  have hRenamed : ¬ placeholderStem <:+: applyRenames (standardRenames defaultHelpersName) text := by
    intro hi
    have := inOrder_of_standardRenames (by simp) (Text.inOrder_singleton.2 hi)
    exact hStem (Text.inOrder_singleton.1 this)
  exact Loop.inOrder_of_convert hRenamed (by decide +kernel) hOk
    (fun p hp => neutral_of_mem (hps p hp)) h

theorem not_hasSpan_outcome (hStem : ¬ placeholderStem <:+: text)
    (hComment : ¬ HasSpan commentStart commentEnd text) : ¬ HasSpan commentStart commentEnd out := by
  have hMarks : ∀ p ∈ [commentStart, commentEnd], p ∈ targets := by decide
  intro h
  have hRenamed := inOrder_renamed_of_outcome hOk hStem hMarks (hasSpan_iff_inOrder.1 h)
  apply hComment
  apply hasSpan_iff_inOrder.2
  exact inOrder_of_standardRenames (fun p hp => List.mem_cons_of_mem _ (hMarks p hp)) hRenamed

theorem not_old_infix_outcome (hStem : ¬ placeholderStem <:+: text) {r : Rename}
    (hr : r ∈ standardRenames defaultHelpersName) : ¬ r.1 <:+: out := by
  have hTarget {s : Rename} (hs : s ∈ standardRenames defaultHelpersName) : s.1 ∈ targets :=
    List.mem_cons_of_mem _ (List.mem_cons_of_mem _ (List.mem_map_of_mem hs))
  have hOne : ∀ p ∈ [r.1], p ∈ targets := by simpa using hTarget hr
  intro h
  have hRenamed := inOrder_renamed_of_outcome hOk hStem hOne (Text.inOrder_singleton.2 h)
  refine not_infix_applyRenames old_ne_nil ?_ hr (Text.inOrder_singleton.1 hRenamed)
  exact fun s hs t ht => separates_rename ht (List.mem_cons_of_mem _ (hTarget hs))

end Passes

theorem normalize_of_fixed (hComment : ¬ HasSpan commentStart commentEnd text)
    (hOld : ∀ r ∈ standardRenames defaultHelpersName, ¬ r.1 <:+: text)
    (hOpener : Loop.OpenerFree text) : normalize {} text none none = .ok text := by
  have hIgnore : deleteSpans defaultIgnoreStart defaultIgnoreEnd text = text :=
    deleteSpans_of_not_hasSpan (by decide) (not_hasSpan_ignore hComment)
  have hUncommented : deleteSpans commentStart commentEnd text = text :=
    deleteSpans_of_not_hasSpan (by decide) hComment
  rw [normalize_default, hIgnore, hUncommented, applyRenames_of_not_infix old_ne_nil hOld]
  exact Loop.convert_of_not_hasOpener (Loop.hasOpener_eq_false.2 hOpener)

/-- A second normalization changes nothing and warns of nothing, as long as the template has neither a
comment nor the stem of a placeholder once its ignored spans and its comments are deleted. -/
theorem normalize_stable (text out : Text)
    (hComment : ¬ HasSpan commentStart commentEnd
      (deleteSpans commentStart commentEnd (deleteSpans defaultIgnoreStart defaultIgnoreEnd text)))
    (hStem : ¬ placeholderStem <:+:
      deleteSpans commentStart commentEnd (deleteSpans defaultIgnoreStart defaultIgnoreEnd text))
    (hOk : (normalize {} text none none).result = .ok out) :
    normalize {} out none none = .ok out := by
  rw [normalize_default] at hOk
  have hNoComment := not_hasSpan_outcome hOk hStem hComment
  have hNoOld : ∀ r ∈ standardRenames defaultHelpersName, ¬ r.1 <:+: out :=
    fun r hr => not_old_infix_outcome hOk hStem hr
  have hNoOpener : Loop.OpenerFree out := Loop.openerFree_of_convert (by decide) hOk
  exact normalize_of_fixed hNoComment hNoOld hNoOpener

theorem normalize_stable_nested :
    let text := ("*@ @*VASH_IGNORE_START*@ @foreach( @*VASH_IGNORE_END*@@* @\x7b *@@foreach (y in " ++
      "@\x7b f \x7d x.Any()) \x7b@foreach(z in y.Length) \x7b@Html.Raw(z)\x7d\x7d @*").toList
    let out := ("*@ @Html.foreach(@\x7b f \x7d x.length>0, function(y) \x7b@Html.foreach(y.length, " ++
      "function(z) \x7b@Html.raw(z)\x7d)\x7d) @*").toList
    let uncommented :=
      deleteSpans commentStart commentEnd (deleteSpans defaultIgnoreStart defaultIgnoreEnd text)
    (¬ HasSpan commentStart commentEnd uncommented ∧ ¬ placeholderStem <:+: uncommented ∧
        (normalize {} text none none).result = .ok out) ∧
      normalize {} out none none = .ok out := by
  intro text out uncommented
  have hUncommented : uncommented = ("*@ @foreach (y in @\x7b f \x7d x.Any()) " ++
      "\x7b@foreach(z in y.Length) \x7b@Html.Raw(z)\x7d\x7d @*").toList := by decide +kernel
  have hComment : ¬ HasSpan commentStart commentEnd uncommented := by
    rw [hUncommented]
    decide +kernel
  have hStem : ¬ placeholderStem <:+: uncommented := by
    rw [hUncommented]
    decide +kernel
  have hOk : (normalize {} text none none).result = .ok out := by
    have hConvert : normalize {} text none none = Loop.convert defaultHelpersName .standard
        (applyRenames (standardRenames defaultHelpersName) uncommented) := normalize_default text
    rw [hConvert, hUncommented]
    exact Outcome.eq_ok_of_toOption (by decide +kernel)
  exact ⟨⟨hComment, hStem, hOk⟩, normalize_stable text out hComment hStem hOk⟩

end RazorVash.Template
