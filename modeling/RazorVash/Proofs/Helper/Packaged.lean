import RazorVash.Helper.Packaged
import RazorVash.Proofs.Template.Stability
import RazorVash.Proofs.Template.Thinned

namespace RazorVash.PackagedHelper

open Loop Template

variable {text out o p : Text} {helper : PackagedHelper}

/-- The renames that are the same whatever the helpers are called. -/
def memberRenames : List Rename := (standardRenames defaultHelpersName).take 4

/-- The renames whose new tokens begin with what the helpers are called. -/
def testRenames (helpersName : Text) : List Rename := (standardRenames helpersName).drop 4

def testNames : List Text := (testRenames defaultHelpersName).map Prod.fst

theorem applyRenames_standardRenames (helpersName text : Text) :
    applyRenames (standardRenames helpersName) text =
      applyRenames (testRenames helpersName) (applyRenames memberRenames text) := rfl

theorem fst_mem_testNames {helpersName : Text} {r : Rename} (h : r ∈ testRenames helpersName) :
    r.1 ∈ testNames := by
  have hNames : testNames = (testRenames helpersName).map Prod.fst := rfl
  rw [hNames]
  exact List.mem_map_of_mem h

theorem mem_standardRenames {r : Rename} (h : r ∈ memberRenames) :
    r ∈ standardRenames defaultHelpersName :=
  List.mem_of_mem_take h

theorem separates_memberRename {r : Rename} (hr : r ∈ memberRenames) (ho : IsOpener o) :
    Text.Separates r.2 o := by
  have hNew : ∀ r ∈ memberRenames, '.' ∈ r.2 ∧ '(' ∉ r.2 ∧ '@' ∉ r.2 := by decide +kernel
  obtain ⟨hPoint, hParenthesis, hAt⟩ := hNew r hr
  obtain ⟨before, after, hSplit⟩ := List.append_of_mem hPoint
  rw [hSplit, List.mem_append, not_or] at hParenthesis
  rw [hSplit, List.mem_append, List.mem_cons, not_or, not_or] at hAt
  rw [hSplit]
  exact separates_of_foreign before after (by decide) hParenthesis.1 hAt.2.2 ho

theorem infix_of_memberRenames (hSeparates : ∀ r ∈ memberRenames, Text.Separates r.2 p)
    (h : p <:+: applyRenames memberRenames text) : p <:+: text := by
  apply Text.inOrder_singleton.1
  refine inOrder_of_applyRenames (fun r hr => old_ne_nil r (mem_standardRenames hr)) ?_
    (Text.inOrder_singleton.2 h)
  simpa using hSeparates

/-- What every opener of a loop begins with, or is. -/
def openerPatterns : List (List (Char → Bool)) :=
  [literally keyword ++ [fun d => d == '('],
    literally keyword ++ [isBlank, fun d => isBlank d || d == '(']]

theorem exists_fits_of_isOpener (ho : IsOpener o) :
    ∃ pattern ∈ openerPatterns, ∃ piece, piece <:+: o ∧ Fits pattern piece := by
  have hKeyword := fits_literally keyword
  obtain ⟨blanks, rfl, hBlanks⟩ := ho
  rcases blanks with _ | ⟨b, _ | ⟨b', blanks⟩⟩
  · exact ⟨_, List.mem_cons_self, keyword ++ ['('], List.infix_refl _,
      List.rel_append hKeyword (.cons rfl .nil)⟩
  · have hBlank : isBlank b = true := hBlanks b List.mem_cons_self
    exact ⟨_, List.mem_cons_of_mem _ List.mem_cons_self, keyword ++ [b, '('], by simp,
      List.rel_append hKeyword (.cons hBlank (.cons (by simp) .nil))⟩
  · have hBlank : isBlank b = true := hBlanks b List.mem_cons_self
    have hBlank' : isBlank b' = true := hBlanks b' (by simp)
    refine ⟨_, List.mem_cons_of_mem _ List.mem_cons_self, keyword ++ [b, b'],
      ⟨[], blanks ++ ['('], by simp⟩,
      List.rel_append hKeyword (.cons hBlank (.cons (by simp [hBlank']) .nil))⟩

/-- A text in which nothing can be found, whatever is cut out of it. -/
structure Harmless (text : Text) : Prop where
  filled : text ≠ []
  uncommented : '*' ∉ text
  tests : ∀ name ∈ testNames, ¬ List.Sublist name text
  openers : ∀ c ∈ text.eraseDups, ∀ pattern ∈ openerPatterns, spells c pattern text = false

instance (text : Text) : Decidable (Harmless text) :=
  decidable_of_iff (text ≠ [] ∧ '*' ∉ text ∧
      (testNames.all fun name => decide (¬ List.Sublist name text)) ∧
      text.eraseDups.all fun c => openerPatterns.all fun pattern => !spells c pattern text)
    ⟨fun ⟨hFilled, hUncommented, hTests, hOpeners⟩ =>
        ⟨hFilled, hUncommented, by simpa using hTests, by simpa using hOpeners⟩,
      fun h => ⟨h.filled, h.uncommented, by simpa using h.tests, by simpa using h.openers⟩⟩

def Left (text out : Text) : Prop := ∃ c ∈ text, Thinned c text out

theorem left_deleteSpans {start : Text} (hText : text ≠ []) (hStart : start ≠ []) (stop : Text) :
    Left text (deleteSpans start stop text) := by
  obtain ⟨c, start, rfl⟩ := List.exists_cons_of_ne_nil hStart
  have hThinned : Thinned c text (deleteSpans (c :: start) stop text) := thinned_deleteSpans stop text
  by_cases hc : c ∈ text
  · exact ⟨c, hc, hThinned⟩
  · rw [hThinned.eq_of_notMem hc]
    obtain ⟨d, hd⟩ := List.exists_mem_of_ne_nil _ hText
    exact ⟨d, hd, .refl d text⟩

section Harmless
variable (h : Harmless text) (hLeft : Left text out)
include h hLeft

theorem Harmless.openerFree : OpenerFree out := by
  intro o ho hOpener
  obtain ⟨pattern, hPattern, piece, hPiece, hFits⟩ := exists_fits_of_isOpener ho
  obtain ⟨c, hc, hThinned⟩ := hLeft
  have hSpells := spells_of_thinned hThinned (hPiece.trans hOpener) hFits
  rw [h.openers c (List.mem_eraseDups.2 hc) pattern hPattern] at hSpells
  cases hSpells

theorem Harmless.deleteSpans_comment : deleteSpans commentStart commentEnd out = out := by
  apply deleteSpans_of_cut?_eq_none (by decide)
  rw [Text.cut?_eq_none]
  intro hComment
  obtain ⟨c, -, hThinned⟩ := hLeft
  exact h.uncommented (hThinned.sublist.subset (hComment.subset (by decide)))

theorem Harmless.applyRenames_eq (helpersName : Text) :
    applyRenames (standardRenames helpersName) out = applyRenames memberRenames out := by
  rw [applyRenames_standardRenames]
  apply applyRenames_of_not_infix
  · intro r hr hNil
    have hName := fst_mem_testNames hr
    rw [hNil] at hName
    revert hName
    decide +kernel
  · intro r hr hInfix
    have hName := fst_mem_testNames hr
    have hTargets : ∀ name ∈ testNames, name ∈ placeholderStem :: targets := by decide +kernel
    -- new names of members cannot spell an old test, so it must have been there before
    have hLeftOver := infix_of_memberRenames
      (fun s hs => separates_rename (mem_standardRenames hs) (hTargets _ hName)) hInfix
    obtain ⟨c, -, hThinned⟩ := hLeft
    exact h.tests _ hName (hLeftOver.sublist.trans hThinned.sublist)

theorem Harmless.openerFree_renamed (helpersName : Text) :
    OpenerFree (applyRenames (standardRenames helpersName) out) := by
  intro o ho hOpener
  rw [h.applyRenames_eq hLeft] at hOpener
  exact h.openerFree hLeft o ho
    (infix_of_memberRenames (fun r hr => separates_memberRename hr ho) hOpener)

end Harmless

theorem Harmless.exists_normalize (h : Harmless text) (options : NormalizerOptions) :
    ∃ out, normalize options text none none = .ok out := by
  have hLeft := left_deleteSpans h.filled options.ignoreStart_ne options.ignoreEnd
  have hNormalize : normalize options text none none =
      convert options.helpersName .standard (applyRenames (standardRenames options.helpersName)
        (deleteSpans commentStart commentEnd
          (deleteSpans options.ignoreStart options.ignoreEnd text))) := rfl
  rw [h.deleteSpans_comment hLeft] at hNormalize
  exact ⟨_, hNormalize.trans (convert_of_not_hasOpener
    (hasOpener_eq_false.2 (h.openerFree_renamed hLeft _)))⟩

theorem harmless_text : ∀ helper ∈ all, Harmless helper.text := by
  decide +kernel

/-- Every packaged helper can be normalized, whatever is ignored and whatever the helpers are called. -/
theorem exists_normalize (options : NormalizerOptions) (hHelper : helper ∈ all) :
    ∃ text, normalize options helper.text none none = .ok text :=
  (harmless_text helper hHelper).exists_normalize options

end RazorVash.PackagedHelper
