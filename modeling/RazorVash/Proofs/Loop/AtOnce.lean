import RazorVash.Proofs.Draft.Opening
import RazorVash.Proofs.Draft.Places
import RazorVash.Proofs.LogicBlock.RoundTrip
import RazorVash.Proofs.Loop.Rewrites
import RazorVash.Proofs.Loop.Site

/-!
Loops rewritten one after the other, in a text that changes with each one, and all at once at their
places in the template come to the same. The pass is followed on a draft of the template from some
place on: what the draft has as marks the edit has as places of closing braces, and the loops that
are left are the sites from that place on.
-/
namespace RazorVash.Loop
open Piece Draft

variable {helpersName text : Text} {d d₀ : Draft} {n : Nat}

/-! ### A call in a draft -/

theorem not_stem_infix_callOpener {header : LoopHeader}
    (hName : ¬ placeholderStem <:+: helpersName) (hIterable : ¬ placeholderStem <:+: header.iterable)
    (hVariable : ¬ placeholderStem <:+: header.name) :
    ¬ placeholderStem <:+: callOpener helpersName header := by
  have hHead : ¬ placeholderStem <:+: [] ++ '@' :: helpersName := by
    rw [Text.infix_append_cons (by decide)]
    exact not_or.2 ⟨by decide, hName⟩
  have hCall : ¬ placeholderStem <:+: "foreach(".toList ++ header.iterable := by
    rw [placeholderStem_eq_cons] at hIterable ⊢
    rwa [Text.infix_append_of_head (by decide)]
  have hFunction : ¬ placeholderStem <:+: " function(".toList ++ header.name := by
    rw [placeholderStem_eq_cons] at hVariable ⊢
    rwa [Text.infix_append_of_head (by decide)]
  rw [callOpener_eq, Text.infix_append_cons (by decide), Text.infix_append_cons (by decide),
    Text.infix_append_cons (by decide)]
  rintro (h | h | h | h)
  · exact hHead h
  · exact hCall h
  · exact hFunction h
  · revert h
    decide

theorem clean_callOpener {header : LoopHeader} {o : Draft} (hBefore : Clean d₀)
    (hCall : ¬ placeholderStem <:+: callOpener helpersName header) (ho : Clean o) :
    Clean (d₀ ++ ((callOpener helpersName header).map .char ++ o)) := by
  obtain ⟨inner, hInner⟩ : ∃ inner, callOpener helpersName header = '@' :: (inner ++ ['{']) :=
    ⟨helpersName ++ '.' :: (("foreach(".toList ++ header.iterable) ++
      ',' :: ((" function(".toList ++ header.name) ++ ')' :: [' '])), by
      rw [callOpener_eq]
      simp only [List.append_assoc, List.cons_append, List.nil_append]⟩
  rw [hInner] at hCall ⊢
  have hClean : ¬ placeholderStem <:+: inner := fun h =>
    hCall (List.infix_cons (List.infix_append_of_infix_left h))
  simp only [List.map_cons, List.map_append, List.map_nil, List.cons_append, List.append_assoc,
    List.nil_append]
  apply hBefore.append_cons (by decide)
  exact (clean_map_char hClean).append_cons (by decide) ho

theorem not_stem_infix_header {headerText : Text} {header : LoopHeader}
    (hStem : ¬ placeholderStem <:+: headerText)
    (hParsed : LoopHeader.parse headerText =
      ((header.name, header.declared), .ok header.iterable)) :
    ¬ placeholderStem <:+: header.iterable ∧ ¬ placeholderStem <:+: header.name := by
  have hIterable := LoopHeader.iterable_infix (congrArg Prod.snd hParsed)
  refine ⟨fun h => hStem (h.trans hIterable), fun h => ?_⟩
  have hVariable := LoopHeader.variable_eq headerText
  rw [hParsed] at hVariable
  rcases hVariable with hv | ⟨hv, -⟩
  · rw [show header.name = LoopHeader.defaultVariable from hv] at h
    revert h
    decide
  · exact hStem (h.trans hv)

/-! ### The pass on a draft -/

/-- The draft `d` is the template `text` from `n` on, in the middle of the pass: `sites` are the loops
that are left, and the edit that takes `all` loops at once has their ends, the marks of the draft and
nothing else to do from there on. -/
structure Follows (text : Text) (all : List Site) (n : Nat) (d : Draft) (sites : List Site) :
    Prop where
  rest : text.drop n = spell Mark.written d
  ahead : sitesFrom n (spell Mark.written d) = some sites
  clean : Clean d
  paired : ∃ pending, Paired pending d
  closers : ∀ i, n ≤ i → ((∃ site ∈ all, site.closer? text = some (i : Int)) ↔
    i ∈ loopClosers n d ∨ ∃ site ∈ sites, site.closer? text = some (i : Int))
  covers : ∀ i, n ≤ i → all.find? (·.covers i) = sites.find? (·.covers i)
  wellFormed : ∀ site ∈ sites, site.WellFormed text

variable {all more : List Site} {site : Site}

theorem Follows.cutOpener?_eq_none (h : Follows text all n d []) :
    cutOpener? (spell Mark.written d) = none := by
  cases hCut : cutOpener? (spell Mark.written d) with
  | none => rfl
  | some s =>
    obtain ⟨before, o, rest⟩ := s
    obtain ⟨_, _, _, _, _, _, hSites, _⟩ := exists_of_sitesFrom hCut h.ahead
    cases hSites

/-- The first loop that is left, as characters of the draft. -/
theorem Follows.exists_loop (h : Follows text all n d (site :: more)) :
    ∃ d₀ o d', d = d₀ ++ (o.map .char ++ (site.headerText.map .char ++ .char '{' :: d')) ∧
      cutOpener? (spell Mark.placeholder d) = some (spell Mark.placeholder d₀, o,
        site.headerText ++ '{' :: spell Mark.placeholder d') ∧
      '{' ∉ site.headerText ∧ site.start = n + (spell Mark.written d₀).length ∧
      site.brace = site.start + o.length + site.headerText.length ∧
      sitesFrom (site.brace + 1) (spell Mark.written d') = some more := by
  cases hCut : cutOpener? (spell Mark.written d) with
  | none =>
    have hSites := h.ahead
    rw [sitesFrom_of_cutOpener?_eq_none hCut] at hSites
    cases hSites
  | some s =>
    obtain ⟨before, o, rest⟩ := s
    obtain ⟨headerText, body, first, others, hBrace, rfl, hSites, hMore⟩ :=
      exists_of_sitesFrom hCut h.ahead
    obtain ⟨rfl, rfl⟩ := List.cons.inj hSites
    have hWF := h.wellFormed _ List.mem_cons_self
    have hNoBrace : '{' ∉ headerText := by
      intro hm
      obtain ⟨u, v, hu⟩ := List.append_of_mem hm
      exact Text.not_infix_of_cut? (List.cons_ne_nil _ _) hBrace ⟨u, v, by simp [hu]⟩
    have hRest : rest = headerText ++ '{' :: body := by simpa using Text.cut?_eq_some hBrace
    rw [hRest] at hCut
    obtain ⟨d₀, d', rfl, rfl, rfl⟩ := exists_of_cutOpener?_spell hCut hNoBrace hWF.noCloser
      hWF.noLogicOpener
    refine ⟨d₀, o, d', rfl, ?_, hNoBrace, rfl, rfl, hMore⟩
    have hSpell : spell Mark.placeholder (headerText.map .char ++ .char '{' :: d') =
        headerText ++ '{' :: spell Mark.placeholder d' := by
      rw [spell_append, spell_map_char, spell_char]
    rw [← hSpell]
    exact cutOpener?_spell (isOpener_of_cutOpener? hCut) hCut

/-- The end of the first loop: a brace of the draft where the template closes the loop. -/
theorem Follows.exists_end {d₀ d' : Draft} {u : Text} (h : Follows text all n d (site :: more))
    (hd : d = d₀ ++ (u.map .char ++ .char '{' :: d'))
    (hBrace : site.brace = n + (spell Mark.written d₀).length + u.length) :
    ∃ e₁ e₂ outer, d' = e₁ ++ brace :: e₂ ∧ Closes .loopCloser [] outer e₁ e₂ ∧
      text.drop (site.brace + 1) = spell Mark.written d' ∧
      ∀ i : Nat, site.closer? text = some (i : Int) ↔
        i = site.brace + 1 + (spell Mark.written e₁).length := by
  have hBody : text.drop (site.brace + 1) = spell Mark.written d' := by
    have hSplit : spell Mark.written d =
        (spell Mark.written d₀ ++ u ++ ['{']) ++ spell Mark.written d' := by
      rw [hd]
      simp
    have hDrop : text.drop (site.brace + 1) = (text.drop n).drop (site.brace + 1 - n) := by
      rw [List.drop_drop]
      congr 1
      omega
    rw [hDrop, h.rest, hSplit, List.drop_left']
    simp only [List.length_append, List.length_singleton]
    omega
  obtain ⟨i, hi⟩ := Outcome.isOk_iff.1 (h.wellFormed _ List.mem_cons_self).closed
  obtain ⟨m, hm, -⟩ := Brace.findMatchingClose_eq_ok.1 hi
  rw [hBody] at hm
  obtain ⟨pending, hPaired⟩ := h.paired
  rw [hd, ← List.append_assoc, paired_append, paired_cons_opener (q := brace) rfl] at hPaired
  have hPaired' : Paired ([] ++ brace :: pendingAfter pending (d₀ ++ u.map .char)) d' := hPaired.2
  -- paired inside the loop's own brace, the body ends at a piece of the draft
  obtain ⟨e₁, e₂, rfl, rfl, hCloses⟩ := exists_closes (m := .loopCloser) hPaired' hm
    (by decide) List.not_mem_nil (fun hk => by cases hk)
  refine ⟨e₁, e₂, _, rfl, hCloses, hBody, fun i => ⟨fun hCloser => ?_, ?_⟩⟩
  · obtain ⟨k, hk, rfl⟩ := brace_lt_of_closer? hCloser
    rw [hBody, hm] at hk
    rw [Except.ok.inj hk]
  · rintro rfl
    have hFound : Brace.findMatchingClose text (site.brace + 1 : Nat) =
        .ok ((site.brace + 1 : Nat) + (spell Mark.written e₁).length) :=
      Brace.findMatchingClose_eq_ok.2 ⟨_, by rw [hBody, hm], rfl⟩
    rw [Site.closer?, hFound, Int.natCast_add]
    rfl

/-- After a loop the invariant holds again, with its end as a mark instead of a site. -/
theorem Follows.next {d₀ e₁ e₂ : Draft} {u : Text} {outer : List Piece}
    (h : Follows text all n d (site :: more))
    (hd : d = d₀ ++ (u.map .char ++ .char '{' :: (e₁ ++ brace :: e₂)))
    (hBrace : site.brace = n + (spell Mark.written d₀).length + u.length)
    (hCloses : Closes .loopCloser [] outer e₁ e₂)
    (hBody : text.drop (site.brace + 1) = spell Mark.written (e₁ ++ brace :: e₂))
    (hCloser : ∀ i : Nat, site.closer? text = some (i : Int) ↔
      i = site.brace + 1 + (spell Mark.written e₁).length)
    (hMore : sitesFrom (site.brace + 1) (spell Mark.written (e₁ ++ brace :: e₂)) = some more) :
    Follows text all (site.brace + 1) (e₁ ++ .mark .loopCloser :: e₂) more := by
  have hSame : spell Mark.written (e₁ ++ .mark .loopCloser :: e₂) =
      spell Mark.written (e₁ ++ brace :: e₂) := by
    rw [spell_append, spell_append]
    rfl
  -- after the brace only the marks of the body count
  have hClosers : ∀ i, site.brace + 1 ≤ i →
      (i ∈ loopClosers n d ↔ i ∈ loopClosers (site.brace + 1) (e₁ ++ brace :: e₂)) := by
    intro i hi
    have hSplit : d = (d₀ ++ u.map .char ++ [.char '{']) ++ (e₁ ++ brace :: e₂) := by
      rw [hd]
      simp
    have hLength : n + (spell Mark.written (d₀ ++ u.map .char ++ [.char '{'])).length =
        site.brace + 1 := by
      simp only [spell_append, spell_map_char, spell_char, spell_nil, List.length_append,
        List.length_singleton]
      omega
    rw [hSplit, mem_loopClosers_append_right (by omega), hLength]
  refine ⟨hBody.trans hSame.symm, by rwa [hSame], ?_, ⟨_, hCloses.paired⟩, ?_, ?_, ?_⟩
  · have hClean := h.clean
    rw [hd] at hClean
    exact hClean.of_append_right.of_append_right.of_cons.mark .loopCloser
  · intro i hi
    rw [h.closers i (by omega), hClosers i hi, mem_loopClosers_mark, ← hCloser, or_assoc]
    simp only [List.mem_cons, exists_eq_or_imp]
  · intro i hi
    have hNot : site.covers i = false := by
      rw [Site.covers, Bool.and_eq_false_iff]
      exact .inr (decide_eq_false (by omega))
    rw [h.covers i (by omega), List.find?_cons_of_neg (by simp [hNot])]
  · exact fun s hs => h.wellFormed s (List.mem_cons_of_mem _ hs)

/-! ### What the edit does from some place on -/

variable {sites : List Site}

theorem Follows.editFrom_before {d' : Draft} (h : Follows text all n d sites) (hd : d = d₀ ++ d')
    (hStart : ∀ site ∈ sites, n + (spell Mark.written d₀).length ≤ site.start) :
    editFrom helpersName text all n (spell Mark.written d₀) = spell Mark.converted d₀ := by
  apply flatMap_zipIdx_spell
  · intro i hi
    have hMem : i ∈ loopClosers n d := by
      rw [hd, loopClosers_append, List.mem_append]
      exact .inl hi
    obtain ⟨site, hs, hCloser⟩ := (h.closers i (lt_of_mem_loopClosers hi).1).2 (.inl hMem)
    exact editAt_of_closer hs hCloser
  · intro c i hn hi hNot
    -- the loops that are left begin later, and end later still
    have hNone : sites.find? (·.covers i) = none := by
      rw [List.find?_eq_none]
      intro site hs hCovers
      have := hStart site hs
      have : site.start ≤ i := of_decide_eq_true (Bool.and_eq_true_iff.1 hCovers).1
      omega
    have hNoCloser : ¬ ∃ site ∈ all, site.closer? text = some (i : Int) := by
      rw [h.closers i hn, hd, loopClosers_append, List.mem_append]
      rintro ((hm | hm) | ⟨site, hs, hCloser⟩)
      · exact hNot hm
      · have := lt_of_mem_loopClosers hm
        omega
      · obtain ⟨k, -, hk⟩ := brace_lt_of_closer? hCloser
        have := le_of_mem_sitesFrom h.ahead hs
        have := hStart site hs
        omega
    change editAt helpersName text all c i = [c]
    rw [editAt_of_not_closer hNoCloser, h.covers i hn, hNone]

theorem Follows.editFrom_header {d' : Draft} {u : Text} (h : Follows text all n d (site :: more))
    (hd : d = d₀ ++ (u.map .char ++ d')) (hu : u ≠ [])
    (hStart : site.start = n + (spell Mark.written d₀).length)
    (hLength : site.start + u.length = site.brace + 1) {rest : Text}
    (hMore : sitesFrom (site.brace + 1) rest = some more) :
    editFrom helpersName text all site.start u = site.call helpersName := by
  apply editFrom_loop hLength rfl hu
  · intro i hLow hHigh
    have hMarks : loopClosers (n + (spell Mark.written d₀).length) (u.map .char) = [] :=
      loopClosers_eq_nil (by simp)
    rw [h.closers i (by omega), hd, loopClosers_append, loopClosers_append, hMarks,
      List.nil_append, List.mem_append, spell_map_char]
    rintro ((hm | hm) | ⟨s, hs, hCloser⟩)
    · have := lt_of_mem_loopClosers hm
      omega
    · have := lt_of_mem_loopClosers hm
      omega
    · obtain ⟨k, -, hk⟩ := brace_lt_of_closer? hCloser
      rcases List.mem_cons.1 hs with rfl | hs
      · omega
      · have := le_of_mem_sitesFrom hMore hs
        omega
  · intro i hLow hHigh
    have hCovers : site.covers i = true :=
      Bool.and_eq_true_iff.2 ⟨decide_eq_true hLow, decide_eq_true hHigh⟩
    rw [h.covers i (by omega)]
    exact List.find?_cons_of_pos hCovers

theorem Follows.editFrom_eq {d' : Draft} {u : Text} (h : Follows text all n d (site :: more))
    (hd : d = d₀ ++ (u.map .char ++ d')) (hu : u ≠ [])
    (hStart : site.start = n + (spell Mark.written d₀).length)
    (hLength : site.start + u.length = site.brace + 1)
    (hMore : sitesFrom (site.brace + 1) (spell Mark.written d') = some more) :
    editFrom helpersName text all n (spell Mark.written d) =
      spell Mark.converted d₀ ++ site.call helpersName ++
        editFrom helpersName text all (site.brace + 1) (spell Mark.written d') := by
  have hStarts : ∀ s ∈ site :: more, n + (spell Mark.written d₀).length ≤ s.start := by
    intro s hs
    rcases List.mem_cons.1 hs with rfl | hs
    · omega
    · have := le_of_mem_sitesFrom hMore hs
      omega
  have hBefore : editFrom helpersName text all n (spell Mark.written d₀) =
      spell Mark.converted d₀ := h.editFrom_before hd hStarts
  have hCall : editFrom helpersName text all site.start u = site.call helpersName :=
    h.editFrom_header hd hu hStart hLength hMore
  have hWritten : spell Mark.written d =
      spell Mark.written d₀ ++ (u ++ spell Mark.written d') := by
    rw [hd, spell_append, spell_append, spell_map_char]
  rw [hWritten, editFrom_append, editFrom_append, ← hStart, hLength, hBefore, hCall,
    List.append_assoc]

/-- A turn of the pass on a draft, and the part of the edit that is the same. -/
theorem Follows.exists_step (h : Follows text all n d (site :: more)) :
    ∃ d₀ e, ∃ t : Turn (spell Mark.placeholder d), t.before = spell Mark.placeholder d₀ ∧
      t.headerText = site.headerText ∧ t.marked = spell Mark.placeholder e ∧ Clean d₀ ∧
      ¬ placeholderStem <:+: site.headerText ∧ Follows text all (site.brace + 1) e more ∧
      ∀ helpersName, editFrom helpersName text all n (spell Mark.written d) =
        spell Mark.converted d₀ ++ site.call helpersName ++
          editFrom helpersName text all (site.brace + 1) (spell Mark.written e) := by
  obtain ⟨d₀, o, d', hd, hCut, hNoBrace, hStart, hBrace, hMore⟩ := h.exists_loop
  have hWF := h.wellFormed site List.mem_cons_self
  have hSplit : d = d₀ ++ ((o ++ site.headerText).map .char ++ .char '{' :: d') := by
    rw [hd]
    simp
  have hBrace' : site.brace = n + (spell Mark.written d₀).length +
      (o ++ site.headerText).length := by
    rw [List.length_append]
    omega
  obtain ⟨e₁, e₂, outer, rfl, hCloses, hBody, hCloser⟩ := h.exists_end hSplit hBrace'
  have hNext := h.next hSplit hBrace' hCloses hBody hCloser hMore
  have hClean := h.clean
  rw [hSplit] at hClean
  obtain ⟨iterable, hIterable⟩ := Outcome.isOk_iff.1 hWF.parsed
  obtain ⟨i, hMark⟩ := markMatchingClose_spell
    hClean.of_append_right.of_append_right.of_cons hCloses
  let header : LoopHeader :=
    ⟨(LoopHeader.parse site.headerText).1.1, iterable, (LoopHeader.parse site.headerText).1.2⟩
  let t : Turn (spell Mark.placeholder d) :=
    ⟨_, o, _, site.headerText, _, header, _, hCut, headerAndBody?_append hNoBrace hWF.noOpener,
      Prod.ext rfl hIterable, i, hMark⟩
  have hHeader : ¬ placeholderStem <:+: site.headerText := by
    intro hs
    apply hClean.of_append_right.of_append_left
    rw [List.map_append]
    exact List.infix_append_of_infix_right (hs.map Piece.char)
  refine ⟨d₀, _, t, rfl, rfl, rfl, hClean.of_append_left, hHeader, hNext, fun helpersName => ?_⟩
  -- the same loop in the edit: opener, header and brace as one part
  let u : Text := o ++ site.headerText ++ ['{']
  have hLoop : d = d₀ ++ (u.map .char ++ (e₁ ++ brace :: e₂)) := by
    rw [hd]
    simp [u]
  have hLength : site.start + u.length = site.brace + 1 := by
    simp only [u, List.length_append, List.length_singleton]
    omega
  rw [h.editFrom_eq hLoop (by simp [u]) hStart hLength hMore]
  congr 2
  rw [spell_append, spell_append]
  rfl

/-- The pass on a draft gives a draft again, and its conversion is the edit. The induction is on the
loops that are left. -/
theorem Follows.exists_rewrites (hName : ¬ placeholderStem <:+: helpersName)
    (h : Follows text all n d sites) :
    ∃ o notes, Rewrites helpersName .standard (spell Mark.placeholder d)
        (spell Mark.placeholder o) notes ∧ Clean o ∧
      spell Mark.converted o = editFrom helpersName text all n (spell Mark.written d) := by
  induction sites generalizing d n with
  | nil =>
    have hNone := cutOpener?_spell_eq_none h.cutOpener?_eq_none
    refine ⟨d, [], .done hNone, h.clean, ?_⟩
    exact (h.editFrom_before (List.append_nil d).symm (by simp)).symm
  | cons site more ih =>
    obtain ⟨d₀, e, t, hBefore, hText, hMarked, hClean, hHeader, hNext, hEdit⟩ := h.exists_step
    obtain ⟨o, notes, hRun, ho, hOut⟩ := ih hNext
    have hCall : site.call helpersName = callOpener helpersName t.header := by
      rw [Site.call, ← hText, t.parsed]
    obtain ⟨hIterable, hVariable⟩ := not_stem_infix_header (hText ▸ hHeader) t.parsed
    have hCallClean := not_stem_infix_callOpener hName hIterable hVariable
    rw [← hMarked] at hRun
    refine ⟨d₀ ++ ((callOpener helpersName t.header).map .char ++ o), t.notes .standard ++ notes,
      ?_, clean_callOpener hClean hCallClean ho, ?_⟩
    · have hTurn := Rewrites.turn t hRun
      rw [hBefore] at hTurn
      simpa using hTurn
    · rw [hEdit, ← hOut, hCall]
      simp

/-! ### Conversions -/

theorem follows_of_written (hd : spell Mark.written d = text) (hClean : Clean d)
    (hPaired : Paired [] d) (hNoMark : .mark .loopCloser ∉ d) (hSites : sitesFrom 0 text = some sites)
    (hWellFormed : ∀ site ∈ sites, site.WellFormed text) : Follows text sites 0 d sites where
  rest := hd.symm
  ahead := hd.symm ▸ hSites
  clean := hClean
  paired := ⟨[], hPaired⟩
  closers := fun i _ => by
    rw [loopClosers_eq_nil hNoMark]
    simp
  covers := fun _ _ => rfl
  wellFormed := hWellFormed

/-- A conversion is the edit of the template at the places of its loops. -/
theorem convert_eq_editAll (text helpersName : Text) (sites : List Site)
    (hStem : ¬ placeholderStem <:+: text) (hName : ¬ placeholderStem <:+: helpersName)
    (hClosed : LogicBlock.AllClosed text) (hSites : sitesFrom 0 text = some sites)
    (hWellFormed : ∀ site ∈ sites, site.WellFormed text) :
    (convert helpersName .standard text).result = .ok (editAll helpersName text sites) := by
  by_cases hLoop : hasOpener text
  · obtain ⟨d, hProtect, hProtects⟩ := LogicBlock.exists_protect hStem hClosed
    have hWritten := hProtects.spell_written
    have hFollows := follows_of_written hWritten (hProtects.clean hStem) hProtects.paired
      hProtects.loopCloser_notMem hSites hWellFormed
    obtain ⟨o, notes, hRun, ho, hOut⟩ := hFollows.exists_rewrites hName
    rw [hWritten] at hOut
    rw [convert_of_protect hLoop hProtect, rewrite_eq_iff.2 hRun, Noted.map, Except.map,
      converted_spell ho, hOut]
    rfl
  · have hNone : cutOpener? text = none := by simpa [hasOpener] using hLoop
    rw [sitesFrom_of_cutOpener?_eq_none hNone] at hSites
    obtain rfl := Option.some.inj hSites
    have hText (f : Mark → Text) : spell f (text.map .char) = text := spell_map_char text
    have hFollows : Follows text [] 0 (text.map .char) [] :=
      follows_of_written (hText _) (clean_map_char hStem) (paired_map_char text (by simp)) (by simp)
        (sitesFrom_of_cutOpener?_eq_none hNone) (by simp)
    have hEdit : editFrom helpersName text [] 0 (spell Mark.written (text.map .char)) =
        spell Mark.converted (text.map .char) :=
      hFollows.editFrom_before (List.append_nil _).symm (by simp)
    rw [hText, hText] at hEdit
    rw [convert, if_neg hLoop, editAll, hEdit]
    rfl

theorem convert_eq_editAll_nested :
    let text := ("@foreach(var x in xs) \x7b@\x7b q \x7b\x7d \x7d@foreach (int y in @x) \x7b@y\x7d\x7d" ++
      "@\x7b\x7d\x7d").toList
    let sites := [⟨0, "var x in xs) ".toList, 22⟩, ⟨32, "int y in @x) ".toList, 55⟩]
    (¬ placeholderStem <:+: text ∧ ¬ placeholderStem <:+: "Html".toList ∧
        LogicBlock.AllClosed text ∧ sitesFrom 0 text = some sites ∧
        ∀ site ∈ sites, site.WellFormed text) ∧
      (convert "Html".toList .standard text).result = .ok (editAll "Html".toList text sites) := by
  intro text sites
  have hStem : ¬ placeholderStem <:+: text := by decide +kernel
  have hName : ¬ placeholderStem <:+: "Html".toList := by decide +kernel
  have hClosed : LogicBlock.AllClosed text := by decide +kernel
  have hSites : sitesFrom 0 text = some sites := by decide +kernel
  have hWellFormed : ∀ site ∈ sites, site.WellFormed text := by decide +kernel
  exact ⟨⟨hStem, hName, hClosed, hSites, hWellFormed⟩,
    convert_eq_editAll text _ sites hStem hName hClosed hSites hWellFormed⟩

end RazorVash.Loop
