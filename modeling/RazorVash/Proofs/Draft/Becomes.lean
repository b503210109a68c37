import RazorVash.Proofs.Draft.Header
import RazorVash.Proofs.Draft.Restoration
import RazorVash.Proofs.Draft.Turn
import RazorVash.Proofs.LogicBlock.RoundTrip
import RazorVash.Proofs.Loop.Rewrites

namespace RazorVash.Draft
open Piece Loop

variable {helpersName name : Text} {d d₀ o it : Draft} {pending : List Piece}

/-- The call that takes the place of a loop's header, with the marks of its iterable. -/
def callDraft (helpersName : Text) (it : Draft) (name : Text) : Draft :=
  ('@' :: helpersName ++ ".foreach(".toList).map .char ++ it ++
    (", function(".toList ++ name ++ ") \x7b".toList).map .char

theorem spell_callDraft (f : Mark → Text) (declared : Bool) :
    spell f (callDraft helpersName it name) =
      callOpener helpersName ⟨name, spell f it, declared⟩ := by
  simp [callDraft, callOpener]

/-- The loops of the first draft, each at the beginning of what is left after the one before, taken
one after the other. -/
inductive Becomes (helpersName : Text) : Draft → Draft → Prop
  | done (d : Draft) : Becomes helpersName d d
  | turn {before h it e₁ e₂ out : Draft} {opener name : Text} (ho : IsOpener opener)
      (hp : Parsed h it name) (next : Becomes helpersName (e₁ ++ .mark .loopCloser :: e₂) out) :
      Becomes helpersName
        (before ++ (opener.map .char ++ (h ++ .char '{' :: (e₁ ++ brace :: e₂))))
        (before ++ (callDraft helpersName it name ++ out))

theorem exists_becomes {text out : Text} {notes : List Note} (hText : text = spell Mark.placeholder d)
    (hClean : Clean d) (hPaired : Paired pending d)
    (hRun : Rewrites helpersName .standard text out notes) :
    ∃ o, out = spell Mark.placeholder o ∧ Becomes helpersName d o := by
  induction hRun generalizing d pending with
  | done => exact ⟨d, hText, .done d⟩
  | turn t _ ih =>
    have ho := isOpener_of_cutOpener? t.cut
    obtain ⟨d₀, d₂, rfl, hBefore, hRest⟩ :=
      exists_of_opener_spell ho (hText.symm.trans (cutOpener?_eq_some t.cut))
    have hSplit := t.split
    rw [← hRest] at hSplit
    obtain ⟨h, d', rfl, hHeader, hBody, -⟩ := exists_of_headerAndBody? hSplit
    obtain ⟨i, hMark⟩ := t.closed
    rw [← hBody] at hMark
    obtain ⟨e₁, e₂, rfl, hMarked, hClean', pending', hPaired'⟩ :=
      exists_of_marked_loop (u := d₀ ++ (t.opener.map .char ++ h)) hClean hPaired (by simp) hMark
    obtain ⟨o, rfl, hNext⟩ := ih hMarked hClean' hPaired'
    have hParse := t.parsed
    rw [← hHeader] at hParse
    obtain ⟨it, hIterable, hParsed⟩ := exists_parsed (congrArg Prod.snd hParse)
    rw [hParse] at hParsed
    refine ⟨_, ?_, .turn ho hParsed hNext⟩
    rw [spell_append, spell_append, spell_callDraft _ t.header.declared, hBefore, hIterable,
      List.append_assoc]

/-- A call makes no stem, inside or where it meets what is around it. -/
theorem clean_callDraft (hBefore : Clean d₀) (hName : ¬ placeholderStem <:+: helpersName)
    (hIterable : Clean it) (hVariable : Clean (name.map .char)) (ho : Clean o) :
    Clean (d₀ ++ (callDraft helpersName it name ++ o)) := by
  have hSplit : d₀ ++ (callDraft helpersName it name ++ o) =
      d₀ ++ .char '@' :: (helpersName.map .char ++ .char '.' :: ("foreach".toList.map .char ++
        .char '(' :: (it ++ .char ',' :: (" function".toList.map .char ++
          .char '(' :: (name.map .char ++ .char ')' :: ([.char ' '] ++ .char '{' :: o)))))) := by
    simp [callDraft]
  have hForeach : Clean ("foreach".toList.map .char) := clean_map_char (by decide +kernel)
  have hFunction : Clean (" function".toList.map .char) := clean_map_char (by decide +kernel)
  have hBlank : Clean [.char ' '] := clean_map_char (t := [' ']) (by decide)
  rw [hSplit]
  have hBody := hBlank.append_cons (p := .char '{') (by decide) ho
  have hArgument := hVariable.append_cons (p := .char ')') (by decide) hBody
  have hCallback := hFunction.append_cons (p := .char '(') (by decide) hArgument
  have hIterate := hIterable.append_cons (p := .char ',') (by decide) hCallback
  have hCall := hForeach.append_cons (p := .char '(') (by decide) hIterate
  exact hBefore.append_cons (by decide)
    ((clean_map_char hName).append_cons (p := .char '.') (by decide) hCall)

theorem Parsed.clean {h : Draft} (hp : Parsed h it name) (hClean : Clean h) :
    Clean it ∧ Clean (name.map .char) := by
  refine ⟨fun hs => hClean (hs.trans hp.iterable), ?_⟩
  rcases hp.name_eq with rfl | ⟨hName, -⟩
  · exact clean_map_char (by decide +kernel)
  · exact fun hs => hClean (hs.trans hName)

/-- What the pass makes of a part of a clean draft is clean in its place. -/
theorem Becomes.clean (hName : ¬ placeholderStem <:+: helpersName) (h : Becomes helpersName d o)
    (u v : Draft) (hd : Clean (u ++ (d ++ v))) : Clean (u ++ (o ++ v)) := by
  induction h generalizing u with
  | done d => exact hd
  | @turn before h it e₁ e₂ out opener name ho hp _ ih =>
    have hSplit : u ++ ((before ++ (opener.map .char ++ (h ++ .char '{' :: (e₁ ++ brace :: e₂)))) ++ v)
        = (u ++ before) ++ (opener.map .char ++ (h ++ .char '{' :: (e₁ ++ brace :: (e₂ ++ v)))) := by
      simp
    rw [hSplit] at hd
    have hHeader := hd.of_append_right.of_append_right
    obtain ⟨hIterable, hVariable⟩ := hp.clean hHeader.of_append_left
    have hMarked := hHeader.of_append_right.of_cons.mark .loopCloser
    have hOut : Clean ([] ++ (out ++ v)) := ih [] (by simpa using hMarked)
    have := clean_callDraft hd.of_append_left hName hIterable hVariable hOut
    simpa using this

theorem spell_converted_eq_written (h : .mark .loopCloser ∉ d) :
    spell Mark.converted d = spell Mark.written d := by
  apply spell_congr
  intro m hm
  cases m with
  | logicOpener => rfl
  | logicCloser => rfl
  | loopCloser => exact absurd hm h

/-- A conversion of one draft into another, as the text that the pass works on shows it. -/
structure Converts (helpersName text out : Text) (d o : Draft) : Prop where
  protects : LogicBlock.protect .standard text = .ok (spell Mark.placeholder d)
  written : spell Mark.written d = text
  unconverted : spell Mark.converted d = text
  runs : ∃ notes, Rewrites helpersName .standard (spell Mark.placeholder d)
    (spell Mark.placeholder o) notes
  becomes : Becomes helpersName d o
  converted : spell Mark.converted o = out

theorem exists_converts {text out : Text} (hStem : ¬ placeholderStem <:+: text)
    (hName : ¬ placeholderStem <:+: helpersName) (hClosed : LogicBlock.AllClosed text)
    (hOk : (convert helpersName .standard text).result = .ok out) :
    ∃ d o, Converts helpersName text out d o := by
  obtain ⟨d, hProtect, hProtects⟩ := LogicBlock.exists_protect hStem hClosed
  have hWritten := hProtects.spell_written
  have hConverted := (spell_converted_eq_written hProtects.loopCloser_notMem).trans hWritten
  by_cases hLoop : hasOpener text
  · have hClean := hProtects.clean hStem
    obtain ⟨guarded, converted, hGuarded, hRun, rfl⟩ := exists_of_convert hLoop hOk
    obtain rfl : spell Mark.placeholder d = guarded := Except.ok.inj (hProtect.symm.trans hGuarded)
    obtain ⟨o, rfl, hBecomes⟩ := exists_becomes rfl hClean hProtects.paired hRun
    have ho : Clean o := by simpa using hBecomes.clean hName [] [] (by simpa using hClean)
    exact ⟨d, o, hProtect, hWritten, hConverted, ⟨_, hRun⟩, hBecomes, (converted_spell ho).symm⟩
  · rw [Bool.not_eq_true] at hLoop
    rw [convert_of_not_hasOpener hLoop] at hOk
    obtain rfl := Except.ok.inj hOk
    have hNone : cutOpener? (spell Mark.written d) = none := by
      rw [hWritten, cutOpener?_eq_none]
      exact hasOpener_eq_false.1 hLoop
    exact ⟨d, d, hProtect, hWritten, hConverted,
      ⟨[], .done (cutOpener?_spell_eq_none hNone)⟩, .done d, hConverted⟩

theorem Converts.clean_append {a b outA outB : Text} {dA oA dB oB : Draft}
    (hA : Converts helpersName a outA dA oA) (hName : ¬ placeholderStem <:+: helpersName)
    (hStem : ¬ placeholderStem <:+: a ++ b) (hB : Converts helpersName b outB dB oB) :
    Clean (oA ++ oB) := by
  have hDrafts : Clean ([] ++ (dA ++ dB)) := by
    apply clean_of_not_infix (f := Mark.written)
    rw [List.nil_append, spell_append, hA.written, hB.written]
    exact hStem
  have hFirst := hA.becomes.clean hName [] dB hDrafts
  have hSecond := hB.becomes.clean hName oA [] (by simpa using hFirst)
  simpa using hSecond

end RazorVash.Draft
