import RazorVash.Proofs.Draft.Basic
import RazorVash.Proofs.Loop.Rewrites
import RazorVash.Proofs.Text.Shown

namespace RazorVash.Loop

variable {text out helpersName new p u v : Text} {marks : LogicBlock.Placeholders}

/-! ### Placeholders -/

/-- Once the loop ends are replaced and the logic blocks restored, no placeholder is left, whatever
the text was. -/
theorem not_placeholder_infix_restore (hn : new ≠ [])
    (hc : Text.Apart new (Mark.placeholder .loopCloser)) (m : Mark) (text : Text) :
    ¬ m.placeholder <:+: LogicBlock.restore .standard (Text.replaceAll closePlaceholder new text) := by
  have hNew := Text.separates_of_apart hn hc
  have hOpener (k : Mark) : Text.Separates LogicBlock.opener k.placeholder :=
    Text.separates_of_apart (List.cons_ne_nil _ _) (by cases k <;> decide)
  have hCloser (k : Mark) : Text.Separates ['}'] k.placeholder :=
    Text.separates_of_apart (List.cons_ne_nil _ _) (by cases k <;> decide)
  rw [LogicBlock.restore, ← Mark.placeholder_logicOpener, ← Mark.placeholder_logicCloser,
    ← Mark.placeholder_loopCloser]
  intro h
  cases m with
  | logicCloser => exact Text.not_infix_replaceAll (Mark.placeholder_ne_nil _) (hCloser _) _ h
  | logicOpener =>
    have h := Text.infix_of_infix_replaceAll (Mark.placeholder_ne_nil _) (hCloser _) h
    exact Text.not_infix_replaceAll (Mark.placeholder_ne_nil _) (hOpener _) _ h
  | loopCloser =>
    have h := Text.infix_of_infix_replaceAll (Mark.placeholder_ne_nil _) (hCloser _) h
    have h := Text.infix_of_infix_replaceAll (Mark.placeholder_ne_nil _) (hOpener _) h
    exact Text.not_infix_replaceAll (Mark.placeholder_ne_nil _) hNew _ h

theorem not_placeholder_infix_asWritten (m : Mark) (text : Text) :
    ¬ m.placeholder <:+: asWritten .standard text :=
  not_placeholder_infix_restore (List.cons_ne_nil _ _) (by decide) m text

/-! ### Openers -/

/-- No loop opens in the text. -/
def OpenerFree (text : Text) : Prop := ∀ o, IsOpener o → ¬ o <:+: text

/-- A character that is in no opener, whatever its blanks are. -/
def Foreign (c : Char) : Prop := isBlank c = false ∧ c ∉ keyword ∧ c ≠ '('

instance : DecidablePred Foreign := fun c => by
  unfold Foreign
  infer_instance

theorem Foreign.notMem {c : Char} (hc : Foreign c) {o : Text} (ho : IsOpener o) : c ∉ o :=
  ho.notMem hc.1 hc.2.1 hc.2.2

theorem OpenerFree.of_infix (hv : OpenerFree v) (h : u <:+: v) : OpenerFree u :=
  fun o ho hi => hv o ho (hi.trans h)

theorem OpenerFree.append_cons {c : Char} (hc : Foreign c) (hu : OpenerFree u) (hv : OpenerFree v) :
    OpenerFree (u ++ c :: v) := by
  intro o ho h
  rcases (Text.infix_append_cons (hc.notMem ho)).1 h with h | h
  · exact hu o ho h
  · exact hv o ho h

theorem OpenerFree.append_left (hu : '@' ∉ u) (hv : OpenerFree v) : OpenerFree (u ++ v) := by
  intro o ho h
  obtain ⟨p, rfl⟩ := ho.exists_cons
  exact hv _ ho ((Text.infix_append_of_head hu).1 h)

theorem OpenerFree.append_right (hu : OpenerFree u) (hv : '(' ∉ v) : OpenerFree (u ++ v) := by
  intro o ho h
  obtain ⟨p, rfl⟩ := ho.exists_concat
  exact hu _ ho ((Text.infix_append_of_last hv).1 h)

theorem openerFree_of_notMem (h : '(' ∉ text) : OpenerFree text := by
  intro o ho hi
  obtain ⟨p, rfl⟩ := ho.exists_concat
  exact h (hi.subset (by simp))

theorem parenthesis_notMem_name (headerText : Text) : '(' ∉ (LoopHeader.parse headerText).1.1 := by
  rcases LoopHeader.variable_eq headerText with h | ⟨-, h⟩
  · rw [h]
    decide
  · exact LoopHeader.notMem_of_isVariableName h (by decide +kernel) (by decide) (by decide) (by decide)

theorem openerFree_callOpener {header : LoopHeader} {before : Text} (hBefore : OpenerFree before)
    (hName : '(' ∉ helpersName) (hIterable : OpenerFree header.iterable)
    (hVariable : '(' ∉ header.name) (hOut : OpenerFree out) :
    OpenerFree (before ++ callOpener helpersName header ++ out) := by
  have hSplit : before ++ callOpener helpersName header ++ out =
      (before ++ '@' :: helpersName) ++ '.' :: (("foreach(".toList ++ header.iterable) ++
        ',' :: ((" function(".toList ++ header.name) ++ ')' :: ([' '] ++ '{' :: out))) := by
    rw [callOpener_eq]
    simp only [List.append_assoc, List.cons_append, List.nil_append]
  rw [hSplit]
  -- no part holds an opener, and the characters between the parts are in none
  have hHead : OpenerFree (before ++ '@' :: helpersName) := by
    refine hBefore.append_right ?_
    rw [List.mem_cons]
    exact not_or.2 ⟨by decide, hName⟩
  have hCall : OpenerFree ("foreach(".toList ++ header.iterable) := hIterable.append_left (by decide)
  have hFunction : OpenerFree (" function(".toList ++ header.name) :=
    (openerFree_of_notMem hVariable).append_left (by decide)
  have hBlank : OpenerFree [' '] := openerFree_of_notMem (by decide)
  have hTail := hBlank.append_cons (c := '{') (by decide) hOut
  have hTail := hFunction.append_cons (c := ')') (by decide) hTail
  have hTail := hCall.append_cons (c := ',') (by decide) hTail
  exact hHead.append_cons (c := '.') (by decide) hTail

/-- A pass that succeeds leaves no opener: by induction on its turns, each of which takes the first
one away and begins none. -/
theorem Rewrites.openerFree {notes : List Note} (hName : '(' ∉ helpersName)
    (h : Rewrites helpersName marks text out notes) : OpenerFree out := by
  induction h with
  | done hNone => exact cutOpener?_eq_none.1 hNone
  | turn t _ ih =>
    have hHeader : OpenerFree t.headerText :=
      hasOpener_eq_false.1 (headerAndBody?_eq_some t.split).2.2
    have hIterable := LoopHeader.iterable_infix (congrArg Prod.snd t.parsed)
    have hVariable := parenthesis_notMem_name t.headerText
    rw [t.parsed] at hVariable
    have hBefore : OpenerFree t.before := fun o ho => not_opener_infix_of_cutOpener? t.cut ho
    exact openerFree_callOpener hBefore hName (hHeader.of_infix hIterable) hVariable ih

/-- A text with a character that is in no opener keeps openers apart, if none begins after it and none
ends before it. -/
theorem separates_of_foreign (before : Text) {c : Char} (after : Text) (hc : Foreign c)
    (hBefore : '(' ∉ before) (hAfter : '@' ∉ after) {o : Text} (ho : IsOpener o) :
    Text.Separates (before ++ c :: after) o := by
  intro u v h
  have hSplit : u ++ (before ++ c :: after) ++ v = (u ++ before) ++ c :: (after ++ v) := by simp
  rw [hSplit, Text.infix_append_cons (hc.notMem ho)] at h
  rcases h with h | h
  · obtain ⟨p, rfl⟩ := ho.exists_concat
    exact .inl ((Text.infix_append_of_last hBefore).1 h)
  · obtain ⟨p, rfl⟩ := ho.exists_cons
    exact .inr ((Text.infix_append_of_head hAfter).1 h)

theorem separates_opener {o : Text} (ho : IsOpener o) : Text.Separates LogicBlock.opener o :=
  separates_of_foreign ['@'] [] (by decide : Foreign '{') (by decide) (by decide) ho

theorem OpenerFree.restore (h : OpenerFree text) :
    OpenerFree (LogicBlock.restore .standard (Text.replaceAll closePlaceholder callClose text)) := by
  intro o ho hi
  have hClose : '}' ∉ o := Foreign.notMem (by decide) ho
  have hParenthesis : ')' ∉ o := Foreign.notMem (by decide) ho
  have hCall : Text.Separates callClose o :=
    Text.separates_of_apart (List.cons_ne_nil _ _) (by simp [Text.Apart, callClose, *])
  have hBrace : Text.Separates ['}'] o :=
    Text.separates_of_apart (List.cons_ne_nil _ _) (by simp [Text.Apart, *])
  rw [LogicBlock.restore] at hi
  have hi := Text.infix_of_infix_replaceAll (List.cons_ne_nil _ _) hBrace hi
  have hi := Text.infix_of_infix_replaceAll (List.cons_ne_nil _ _) (separates_opener ho) hi
  exact h o ho (Text.infix_of_infix_replaceAll (List.cons_ne_nil _ _) hCall hi)

/-! ### Warnings -/

theorem not_placeholder_infix_undeclared {name source : Text} {m : Mark} (hName : '+' ∉ name)
    (hSource : ¬ m.placeholder <:+: source) :
    ¬ m.placeholder <:+: Note.undeclaredMessage name source := by
  intro h
  have hApart : Text.Apart ['\'', '"', '\\', ' ', '.'] m.placeholder := by cases m <;> decide
  have hTail (c : Char) (hc : c ∈ ['\'', '"', '\\', ' ', '.']) : c ∉ '+' :: (m.word ++ ['+', '+']) :=
    fun hm => hApart c hc (List.mem_cons_of_mem _ hm)
  have hBegin : '+' ∉ "@foreach header has no variable declaration, using '".toList ++ name ++
      "': ".toList := by
    intro hm
    rcases List.mem_append.1 hm with hm | hm
    · rcases List.mem_append.1 hm with hm | hm
      · revert hm
        decide +kernel
      · exact hName hm
    · revert hm
      decide
  have h := (Text.infix_append_of_head hBegin).1 h
  have h := Text.infix_of_infix_quoted (hTail _ (by decide)) (hTail _ (by decide))
    (hTail _ (by decide)) h
  have h := Text.infix_of_infix_excerpt (List.cons_ne_nil _ _) (hApart ' ' (by decide))
    (hApart '.' (by decide)) h
  exact hSource h

theorem plus_notMem_name (headerText : Text) : '+' ∉ (LoopHeader.parse headerText).1.1 := by
  rcases LoopHeader.variable_eq headerText with h | ⟨-, h⟩
  · rw [h]
    decide
  · exact LoopHeader.notMem_of_isVariableName h (by decide +kernel) (by decide) (by decide) (by decide)

theorem Rewrites.not_placeholder_infix_warning {notes : List Note}
    (h : Rewrites helpersName .standard text out notes) {w : Text}
    (hw : w ∈ notes.filterMap Note.warning?) (m : Mark) : ¬ m.placeholder <:+: w := by
  induction h with
  | done => cases hw
  | turn t _ ih =>
    rw [List.filterMap_append, List.mem_append] at hw
    rcases hw with hw | hw
    · have hUndeclared : w = Note.undeclaredMessage t.header.name
          (asWritten .standard (t.opener ++ t.rest)) := by
        rw [Turn.notes] at hw
        split at hw
        · cases hw
        · simpa [Note.warning?] using hw
      have hName := plus_notMem_name t.headerText
      rw [t.parsed] at hName
      rw [hUndeclared]
      exact not_placeholder_infix_undeclared hName (not_placeholder_infix_asWritten m _)
    · exact ih hw

/-! ### Conversions -/

theorem openerFree_of_convert (hName : '(' ∉ helpersName)
    (hOk : (convert helpersName .standard text).result = .ok out) : OpenerFree out := by
  by_cases hLoop : hasOpener text
  · obtain ⟨guarded, converted, -, hRun, rfl⟩ := exists_of_convert hLoop hOk
    exact (hRun.openerFree hName).restore
  · rw [convert_of_not_hasOpener (Bool.eq_false_iff.2 hLoop)] at hOk
    rw [← Except.ok.inj hOk]
    exact hasOpener_eq_false.1 (Bool.eq_false_iff.2 hLoop)

/-- Nothing of the conversion itself is left in what it gives, even if the template spells
placeholders or parts of them; so converting once more changes nothing. -/
theorem no_residue_convert (text helpersName out : Text) (hLoop : hasOpener text)
    (hName : '(' ∉ helpersName) (hOk : (convert helpersName .standard text).result = .ok out) :
    (∀ m : Mark, ¬ m.placeholder <:+: out) ∧
      (∀ w ∈ (convert helpersName .standard text).warnings, ∀ m : Mark, ¬ m.placeholder <:+: w) ∧
      (∀ o, IsOpener o → ¬ o <:+: out) ∧
      convert helpersName .standard out = .ok out := by
  obtain ⟨guarded, converted, -, hRun, rfl⟩ := exists_of_convert hLoop hOk
  have hFree := (hRun.openerFree hName).restore
  refine ⟨fun m => ?_, fun w hw => hRun.not_placeholder_infix_warning hw, hFree, ?_⟩
  · exact not_placeholder_infix_restore (List.cons_ne_nil _ _) (by decide) m converted
  · exact convert_of_not_hasOpener (hasOpener_eq_false.2 hFree)

theorem no_residue_convert_fragments :
    let text := ("++VASH_LO@foreach(x in xs) \x7b+@\x7b b \x7d++VASH_LOOP_CLOSE++VASH_LOGIC_CLOSE++\x7d" ++
      "OP_CLOSE++").toList
    let out := ("++VASH_LO@Html.foreach(xs, function(x) \x7b+@\x7b b \x7d\x7dVASH_LOGIC_CLOSE++\x7d)" ++
      "OP_CLOSE++").toList
    (hasOpener text ∧ '(' ∉ "Html".toList ∧
        (convert "Html".toList .standard text).result = .ok out) ∧
      (∀ m : Mark, ¬ m.placeholder <:+: out) ∧
      (∀ w ∈ (convert "Html".toList .standard text).warnings,
        ∀ m : Mark, ¬ m.placeholder <:+: w) ∧
      (∀ o, IsOpener o → ¬ o <:+: out) ∧
      convert "Html".toList .standard out = .ok out := by
  intro text out
  have hLoop : hasOpener text := by decide +kernel
  have hName : '(' ∉ "Html".toList := by decide
  have hOk : (convert "Html".toList .standard text).result = .ok out :=
    Outcome.eq_ok_of_toOption (by decide +kernel)
  exact ⟨⟨hLoop, hName, hOk⟩, no_residue_convert text _ out hLoop hName hOk⟩

end RazorVash.Loop
