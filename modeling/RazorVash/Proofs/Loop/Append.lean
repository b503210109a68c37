import RazorVash.Proofs.Draft.Becomes
import RazorVash.Proofs.LogicBlock.Append
import RazorVash.Proofs.LogicBlock.RoundTrip

namespace RazorVash.Loop
open Draft

variable {helpersName u v before opener rest header body outU outV : Text} {notesU notesV : List Note}
  {d e : Draft}

/-! ### Searches where two texts meet -/

theorem IsOpener.unspanned_at (ho : IsOpener opener) : Text.Unspanned opener u ('@' :: v) := by
  rintro x y hxy - hy
  obtain ⟨p, rfl, -, hp⟩ := ho.exists_rest
  cases x with
  | nil => exact .inl rfl
  | cons c x =>
    cases y with
    | nil => exact .inr rfl
    | cons e y =>
      obtain rfl := (List.cons_prefix_cons.1 hy).1
      rw [List.cons_append] at hxy
      exact absurd (by simp [(List.cons.inj hxy).2]) hp

theorem cutOpener?_append_left (h : cutOpener? u = some (before, opener, rest)) :
    cutOpener? (u ++ v) = some (before, opener, rest ++ v) := by
  have ho := isOpener_of_cutOpener? h
  have hText : u ++ v = before ++ opener ++ (rest ++ v) := by
    rw [cutOpener?_eq_some h]
    simp
  rw [hText]
  apply cutOpener?_append ho
  intro b o w ho' hb
  obtain ⟨p, rfl⟩ := ho.exists_cons
  rw [List.append_assoc, List.cons_append] at hb
  rcases ho'.unspanned_at.in_parts hb with ⟨x, hx, -⟩ | ⟨x, rfl, -⟩
  · exact absurd ⟨b, x, hx.symm⟩ (not_opener_infix_of_cutOpener? h ho')
  · rw [List.length_append]
    exact Nat.le_add_right _ _

section Unspanned
variable (hs : ∀ o, IsOpener o → Text.Unspanned o u v)
include hs

theorem cutOpener?_append_right (hu : cutOpener? u = none)
    (hv : cutOpener? v = some (before, opener, rest)) :
    cutOpener? (u ++ v) = some (u ++ before, opener, rest) := by
  have hText : u ++ v = u ++ before ++ opener ++ rest := by
    rw [cutOpener?_eq_some hv]
    simp
  rw [hText]
  apply cutOpener?_append (isOpener_of_cutOpener? hv)
  intro b o w ho hb
  rcases (hs o ho).in_parts (hText.trans hb) with ⟨x, hx, -⟩ | ⟨x, rfl, hx⟩
  · exact absurd ⟨b, x, hx.symm⟩ (cutOpener?_eq_none.1 hu o ho)
  · have := length_le_of_cutOpener? hv ho hx
    simp only [List.length_append]
    omega

theorem cutOpener?_append_eq_none (hu : cutOpener? u = none) (hv : cutOpener? v = none) :
    cutOpener? (u ++ v) = none := by
  rw [cutOpener?_eq_none] at hu hv ⊢
  exact fun o ho h => ((hs o ho).infix_append h).elim (hu o ho) (hv o ho)

end Unspanned

theorem hasOpener_append_eq_false (h : hasOpener (u ++ v) = false) :
    hasOpener u = false ∧ hasOpener v = false := by
  rw [hasOpener_eq_false] at h
  exact ⟨hasOpener_eq_false.2 fun o ho hi => h o ho (List.infix_append_of_infix_left hi),
    hasOpener_eq_false.2 fun o ho hi => h o ho (List.infix_append_of_infix_right hi)⟩

theorem headerAndBody?_append_right (h : headerAndBody? rest = some (header, body)) :
    headerAndBody? (rest ++ v) = some (header, body ++ v) := by
  obtain ⟨rfl, hBrace, hOpener⟩ := headerAndBody?_eq_some h
  rw [List.append_assoc]
  exact headerAndBody?_append hBrace hOpener

/-! ### Runs -/

theorem Turn.exists_append_left (t : Turn u) (v : Text) :
    ∃ s : Turn (u ++ v), s.before = t.before ∧ s.header = t.header ∧ s.marked = t.marked ++ v := by
  obtain ⟨i, hMark⟩ := t.closed
  obtain ⟨-, -, -, -, hAny⟩ := Brace.exists_of_markMatchingClose (List.cons_ne_nil _ _) hMark
  exact ⟨⟨t.before, t.opener, t.rest ++ v, t.headerText, t.body ++ v, t.header, t.marked ++ v,
    cutOpener?_append_left t.cut, headerAndBody?_append_right t.split, t.parsed, hAny v⟩, rfl, rfl, rfl⟩

theorem Turn.unspanned_marked (t : Turn u) (ho : IsOpener opener) (hs : Text.Unspanned opener u v) :
    Text.Unspanned opener t.marked v := by
  obtain ⟨i, hMark⟩ := t.closed
  obtain ⟨block, rest', hRest, hMarked, -⟩ :=
    Brace.exists_of_markMatchingClose (List.cons_ne_nil _ _) hMark
  have hSuffix : rest' <:+ u := by
    rw [cutOpener?_eq_some t.cut, (headerAndBody?_eq_some t.split).1]
    refine hRest.trans ⟨t.before ++ t.opener ++ (t.headerText ++ ['{']), by simp⟩
  rw [hMarked]
  exact Mark.unspanned_append .loopCloser (brace_notMem_opener ho).2.2 (hs.of_isSuffix hSuffix)

theorem Rewrites.append_right (hs : ∀ o, IsOpener o → Text.Unspanned o u v)
    (hu : cutOpener? u = none) (hv : Rewrites helpersName .standard v outV notesV) :
    ∃ notes, Rewrites helpersName .standard (u ++ v) (u ++ outV) notes := by
  cases hv with
  | done hNone => exact ⟨[], .done (cutOpener?_append_eq_none hs hu hNone)⟩
  | @turn _ out notes t hNext =>
    let s : Turn (u ++ v) := ⟨u ++ t.before, t.opener, t.rest, t.headerText, t.body, t.header,
      t.marked, cutOpener?_append_right hs hu t.cut, t.split, t.parsed, t.closed⟩
    have hTurn : Rewrites helpersName .standard (u ++ v)
        (u ++ t.before ++ callOpener helpersName t.header ++ out) _ := .turn s hNext
    rw [List.append_assoc, List.append_assoc] at hTurn
    rw [List.append_assoc]
    exact ⟨_, hTurn⟩

/-- A run on two texts put together, by induction on the run on the first one. -/
theorem Rewrites.append (hs : ∀ o, IsOpener o → Text.Unspanned o u v)
    (hu : Rewrites helpersName .standard u outU notesU)
    (hv : Rewrites helpersName .standard v outV notesV) :
    ∃ notes, Rewrites helpersName .standard (u ++ v) (outU ++ outV) notes := by
  induction hu with
  | done hNone => exact hv.append_right hs hNone
  | @turn u out notes t _ ih =>
    obtain ⟨s, hBefore, hHeader, hMarked⟩ := t.exists_append_left v
    obtain ⟨notes, hNext⟩ := ih fun o ho => t.unspanned_marked ho (hs o ho)
    rw [← hMarked] at hNext
    have := Rewrites.turn s hNext
    rw [hBefore, hHeader, ← List.append_assoc] at this
    exact ⟨_, this⟩

/-! ### Conversions -/

theorem unspanned_spell (ho : IsOpener opener)
    (hs : Text.Unspanned opener (spell Mark.written d) (spell Mark.written e)) :
    Text.Unspanned opener (spell Mark.placeholder d) (spell Mark.placeholder e) := by
  have hPlus : '+' ∉ opener := (brace_notMem_opener ho).2.2
  rintro x y rfl hx hy
  rw [List.mem_append, not_or] at hPlus
  obtain ⟨d', rfl⟩ := map_char_isSuffix_placeholder hPlus.1 hx
  obtain ⟨e', rfl⟩ := map_char_isPrefix_placeholder hPlus.2 hy
  exact hs x y rfl ⟨spell Mark.written d', by simp⟩ ⟨spell Mark.written e', by simp⟩

/-- Conversion takes templates apart where no opener of a loop or a logic block lies across: the
outcome of the whole is the outcomes of the two parts put together. -/
theorem convert_append (a b helpersName outA outB : Text) (hStem : ¬ placeholderStem <:+: a ++ b)
    (hName : ¬ placeholderStem <:+: helpersName)
    (hOpener : ∀ o, IsOpener o → Text.Unspanned o a b)
    (hLogic : Text.Unspanned LogicBlock.opener a b)
    (hClosedA : LogicBlock.AllClosed a) (hClosedB : LogicBlock.AllClosed b)
    (hA : (convert helpersName .standard a).result = .ok outA)
    (hB : (convert helpersName .standard b).result = .ok outB) :
    (convert helpersName .standard (a ++ b)).result = .ok (outA ++ outB) := by
  by_cases hLoop : hasOpener (a ++ b)
  · have hStemA : ¬ placeholderStem <:+: a := fun h => hStem (List.infix_append_of_infix_left h)
    have hStemB : ¬ placeholderStem <:+: b := fun h => hStem (List.infix_append_of_infix_right h)
    obtain ⟨dA, oA, hConvertsA⟩ := exists_converts hStemA hName hClosedA hA
    obtain ⟨dB, oB, hConvertsB⟩ := exists_converts hStemB hName hClosedB hB
    have hProtect := LogicBlock.protect_append hLogic hConvertsA.protects hConvertsB.protects
    have hSeam (o : Text) (ho : IsOpener o) :
        Text.Unspanned o (spell Mark.placeholder dA) (spell Mark.placeholder dB) := by
      apply unspanned_spell ho
      rw [hConvertsA.written, hConvertsB.written]
      exact hOpener o ho
    obtain ⟨_, hRunA⟩ := hConvertsA.runs
    obtain ⟨_, hRunB⟩ := hConvertsB.runs
    obtain ⟨notes, hRun⟩ := hRunA.append hSeam hRunB
    have hClean : Clean (oA ++ oB) := hConvertsA.clean_append hName hStem hConvertsB
    have hOut : spell Mark.converted (oA ++ oB) = outA ++ outB := by
      rw [spell_append, hConvertsA.converted, hConvertsB.converted]
    rw [convert_of_protect hLoop hProtect, rewrite_eq_iff.2 hRun, ← spell_append, Noted.map,
      Except.map, converted_spell hClean, hOut]
  · -- nothing is protected here, and nothing was in the parts
    rw [Bool.not_eq_true] at hLoop
    obtain ⟨hNoneA, hNoneB⟩ := hasOpener_append_eq_false hLoop
    rw [convert_of_not_hasOpener hNoneA] at hA
    rw [convert_of_not_hasOpener hNoneB] at hB
    rw [convert_of_not_hasOpener hLoop, ← Except.ok.inj hA, ← Except.ok.inj hB]
    rfl

theorem convert_append_siblings :
    let u := ("\x7d@\x7b n \x7d @foreach (var x in @\x7b f \x7d xs) \x7b@foreach(y in @x) " ++
      "\x7b@y\x7d").toList
    let a := u ++ ['\x7d']
    let b := "(@foreach(int z in zs) \x7b@\x7b g \x7bh\x7d \x7d\x7d \x7d\x7b".toList
    let outA := ("\x7d@\x7b n \x7d @Html.foreach(@\x7b f \x7d xs, function(x) " ++
      "\x7b@Html.foreach(@x, function(y) \x7b@y\x7d)\x7d)").toList
    let outB := "(@Html.foreach(zs, function(z) \x7b@\x7b g \x7bh\x7d \x7d\x7d) \x7d\x7b".toList
    (¬ placeholderStem <:+: a ++ b ∧ ¬ placeholderStem <:+: "Html".toList ∧
        (∀ o, IsOpener o → Text.Unspanned o a b) ∧ Text.Unspanned LogicBlock.opener a b ∧
        LogicBlock.AllClosed a ∧ LogicBlock.AllClosed b ∧
        (convert "Html".toList .standard a).result = .ok outA ∧
        (convert "Html".toList .standard b).result = .ok outB) ∧
      (convert "Html".toList .standard (a ++ b)).result = .ok (outA ++ outB) := by
  intro u a b outA outB
  have hStem : ¬ placeholderStem <:+: a ++ b := by decide +kernel
  have hName : ¬ placeholderStem <:+: "Html".toList := by decide +kernel
  have hOpener (o : Text) (ho : IsOpener o) : Text.Unspanned o a b :=
    Text.unspanned_concat (brace_notMem_opener ho).2.1
  have hLogic : Text.Unspanned LogicBlock.opener a b := Text.unspanned_concat (by decide)
  have hClosedA : LogicBlock.AllClosed a := by decide +kernel
  have hClosedB : LogicBlock.AllClosed b := by decide +kernel
  have hA : (convert "Html".toList .standard a).result = .ok outA :=
    Outcome.eq_ok_of_toOption (by decide +kernel)
  have hB : (convert "Html".toList .standard b).result = .ok outB :=
    Outcome.eq_ok_of_toOption (by decide +kernel)
  exact ⟨⟨hStem, hName, hOpener, hLogic, hClosedA, hClosedB, hA, hB⟩,
    convert_append a b _ outA outB hStem hName hOpener hLogic hClosedA hClosedB hA hB⟩

end RazorVash.Loop
