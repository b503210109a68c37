import Mathlib.Data.List.Nodup
import RazorVash.Proofs.Text.Commuting
import RazorVash.Proofs.Text.InOrder
import RazorVash.Template.Options
import RazorVash.Template.Rename

namespace RazorVash.Template

variable {renames : List Rename} {r s : Rename} {text p helpersName : Text} {ps : List Text}

theorem applyRenames_cons :
    applyRenames (r :: renames) text = applyRenames renames (Text.replaceAll r.1 r.2 text) := rfl

theorem inOrder_of_applyRenames (hOld : ∀ r ∈ renames, r.1 ≠ [])
    (hNew : ∀ r ∈ renames, ∀ p ∈ ps, Text.Separates r.2 p)
    (h : Text.InOrder ps (applyRenames renames text)) : Text.InOrder ps text := by
  induction renames generalizing text with
  | nil => exact h
  | cons r renames ih =>
    have hRest := ih (fun s hs => hOld s (List.mem_cons_of_mem _ hs))
      (fun s hs => hNew s (List.mem_cons_of_mem _ hs)) h
    exact Text.inOrder_of_replaceAll (hOld r List.mem_cons_self) (hNew r List.mem_cons_self) hRest

theorem not_infix_applyRenames (hOld : ∀ r ∈ renames, r.1 ≠ [])
    (hNew : ∀ r ∈ renames, ∀ s ∈ renames, Text.Separates s.2 r.1) (hr : r ∈ renames) :
    ¬ r.1 <:+: applyRenames renames text := by
  induction renames generalizing text with
  | nil => cases hr
  | cons s renames ih =>
    have hOld' : ∀ t ∈ renames, t.1 ≠ [] := fun t ht => hOld t (List.mem_cons_of_mem _ ht)
    rcases List.mem_cons.1 hr with rfl | hr
    · intro h
      -- gone with its own rename, and no later one brings it back
      have hSeparates := hNew r List.mem_cons_self
      have hLater : ∀ t ∈ renames, ∀ p ∈ [r.1], Text.Separates t.2 p :=
        fun t ht => by simpa using hSeparates t (List.mem_cons_of_mem _ ht)
      have hRest := inOrder_of_applyRenames hOld' hLater (Text.inOrder_singleton.2 h)
      exact Text.not_infix_replaceAll (hOld r List.mem_cons_self) (hSeparates r List.mem_cons_self) _
        (Text.inOrder_singleton.1 hRest)
    · exact ih hOld' (fun t ht u hu => hNew t (List.mem_cons_of_mem _ ht) u
        (List.mem_cons_of_mem _ hu)) hr

theorem applyRenames_of_not_infix (hOld : ∀ r ∈ renames, r.1 ≠ [])
    (h : ∀ r ∈ renames, ¬ r.1 <:+: text) : applyRenames renames text = text := by
  induction renames with
  | nil => rfl
  | cons r renames ih =>
    have hFirst : Text.replaceAll r.1 r.2 text = text :=
      Text.replaceAll_of_not_isInfix (hOld r List.mem_cons_self) (h r List.mem_cons_self)
    rw [applyRenames_cons, hFirst]
    exact ih (fun s hs => hOld s (List.mem_cons_of_mem _ hs))
      (fun s hs => h s (List.mem_cons_of_mem _ hs))

theorem applyRenames_perm {others : List Rename} (hPerm : others.Perm renames)
    (h : ∀ r ∈ renames, ∀ s ∈ renames, r ≠ s → Text.Independent r.1 r.2 s.1 s.2) (text : Text) :
    applyRenames others text = applyRenames renames text := by
  refine (hPerm.symm.foldl_eq' (fun r hr s hs text => ?_) text).symm
  by_cases hSame : r = s
  · rw [hSame]
  · exact (h s hs r hr (Ne.symm hSame)).replaceAll_comm text

/-- The tokens that are renamed, whatever the helpers are called. -/
def oldTokens : List Text := (standardRenames defaultHelpersName).map Prod.fst

/-- The new tokens without the name of the helpers. -/
def memberTokens : List Text := ((standardRenames defaultHelpersName).take 4).map Prod.snd

/-- What follows the name of the helpers in the other new tokens. -/
def testEndings : List Text := ((standardRenames []).drop 4).map Prod.snd

theorem map_fst_standardRenames (helpersName : Text) :
    (standardRenames helpersName).map Prod.fst = oldTokens := rfl

theorem map_snd_standardRenames (helpersName : Text) :
    (standardRenames helpersName).map Prod.snd =
      memberTokens ++ testEndings.map (helpersName ++ ·) := rfl

theorem fst_mem_oldTokens (hr : r ∈ standardRenames helpersName) : r.1 ∈ oldTokens := by
  rw [← map_fst_standardRenames helpersName]
  exact List.mem_map_of_mem hr

theorem old_ne_nil : ∀ r ∈ standardRenames helpersName, r.1 ≠ [] := by
  have hOld : ∀ old ∈ oldTokens, old ≠ [] := by decide +kernel
  exact fun r hr => hOld r.1 (fst_mem_oldTokens hr)

theorem detached_oldTokens : ∀ old ∈ oldTokens, ∀ other ∈ oldTokens, old ≠ other →
    Text.Detached old other := by
  decide +kernel

theorem detached_memberTokens : ∀ new ∈ memberTokens, ∀ old ∈ oldTokens, Text.Detached new old := by
  decide +kernel

theorem detached_testEndings : ∀ ending ∈ testEndings, ∀ old ∈ oldTokens,
    Text.Detached ending old := by
  decide +kernel

theorem eq_of_fst_eq (hr : r ∈ standardRenames helpersName) (hs : s ∈ standardRenames helpersName)
    (h : r.1 = s.1) : r = s := by
  have hNodup : ((standardRenames helpersName).map Prod.fst).Nodup := by
    rw [map_fst_standardRenames]
    decide +kernel
  exact List.inj_on_of_nodup_map hNodup hr hs h

/-- There is no old token in the name of the helpers, and none ends with something that the name begins
with. -/
structure Suits (helpersName : Text) : Prop where
  free : ∀ r ∈ standardRenames helpersName, ¬ r.1 <:+: helpersName
  apart : ∀ r ∈ standardRenames helpersName, ∀ start, start ≠ [] → start <+: helpersName →
    ¬ start <:+ r.1

theorem Suits.detached (h : Suits helpersName) (hr : r ∈ standardRenames helpersName)
    (hs : s ∈ standardRenames helpersName) : Text.Detached s.2 r.1 := by
  have hNew : s.2 ∈ (standardRenames helpersName).map Prod.snd := List.mem_map_of_mem hs
  rw [map_snd_standardRenames, List.mem_append] at hNew
  rcases hNew with hMember | hTest
  · exact detached_memberTokens _ hMember _ (fst_mem_oldTokens hr)
  · obtain ⟨ending, hEnding, hNew⟩ := List.mem_map.1 hTest
    rw [← hNew]
    exact (detached_testEndings ending hEnding _ (fst_mem_oldTokens hr)).append_left (h.free r hr)
      (h.apart r hr)

theorem Suits.independent (h : Suits helpersName) (hr : r ∈ standardRenames helpersName)
    (hs : s ∈ standardRenames helpersName) (hNe : r ≠ s) :
    Text.Independent r.1 r.2 s.1 s.2 := by
  have hOld : r.1 ≠ s.1 := fun hSame => hNe (eq_of_fst_eq hr hs hSame)
  exact {
    olds := detached_oldTokens _ (fst_mem_oldTokens hr) _ (fst_mem_oldTokens hs) hOld
    olds' := detached_oldTokens _ (fst_mem_oldTokens hs) _ (fst_mem_oldTokens hr) hOld.symm
    kept := h.detached hs hr
    kept' := h.detached hr hs }

/-- If the name of the helpers suits them, the standard renames leave no old token in any text, change
nothing when they are made again, and give the same in every order. -/
theorem standardRenames_settle (h : Suits helpersName) (text : Text) :
    (∀ r ∈ standardRenames helpersName,
        ¬ r.1 <:+: applyRenames (standardRenames helpersName) text) ∧
      applyRenames (standardRenames helpersName) (applyRenames (standardRenames helpersName) text) =
        applyRenames (standardRenames helpersName) text ∧
      ∀ renames : List Rename, renames.Perm (standardRenames helpersName) →
        applyRenames renames text = applyRenames (standardRenames helpersName) text := by
  have hGone : ∀ r ∈ standardRenames helpersName,
      ¬ r.1 <:+: applyRenames (standardRenames helpersName) text := fun r hr =>
    not_infix_applyRenames old_ne_nil
      (fun r hr s hs => Text.separates_of_detached (h.detached hr hs)) hr
  refine ⟨hGone, applyRenames_of_not_infix old_ne_nil hGone, fun renames hPerm => ?_⟩
  exact applyRenames_perm hPerm (fun r hr s hs hNe => h.independent hr hs hNe) text

theorem suits_defaultHelpersName : Suits defaultHelpersName := by
  have hStarts : ∀ old ∈ oldTokens, ∀ start ∈ defaultHelpersName.inits, start ≠ [] →
      ¬ start <:+ old := by decide +kernel
  have hFree : ∀ old ∈ oldTokens, ¬ old <:+: defaultHelpersName := by decide +kernel
  exact ⟨fun r hr => hFree r.1 (fst_mem_oldTokens hr), fun r hr start hNe hStart =>
    hStarts r.1 (fst_mem_oldTokens hr) start ((List.mem_inits _ _).2 hStart) hNe⟩

/-- Old tokens side by side, in pieces, and in what another token is renamed to. -/
theorem standardRenames_settle_adjacent :
    let renames := standardRenames defaultHelpersName
    let text := "HtmlString.IsNullOrEmptystring.IsNullOrWhiteSpace.Any().Html.Raw.Count.Lengthx".toList
    let out := ("HtmlHtml.StringIsNullOrEmptyHtml.StringIsNullOrWhiteSpace.length>0.Html.raw" ++
      ".length.lengthx").toList
    Suits defaultHelpersName ∧ applyRenames renames text = out ∧
      (∀ r ∈ renames, ¬ r.1 <:+: out) ∧ applyRenames renames out = out ∧
      renames.reverse ≠ renames ∧ applyRenames renames.reverse text = out := by
  intro renames text out
  have hOut : applyRenames (standardRenames defaultHelpersName) text = out := by decide +kernel
  obtain ⟨hGone, hAgain, hOrder⟩ := standardRenames_settle suits_defaultHelpersName text
  rw [hOut] at hGone hAgain
  refine ⟨suits_defaultHelpersName, hOut, hGone, hAgain, by decide +kernel, ?_⟩
  exact (hOrder _ (List.reverse_perm _)).trans hOut

end RazorVash.Template
