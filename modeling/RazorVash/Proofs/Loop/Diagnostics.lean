import RazorVash.Proofs.Draft.Turn
import RazorVash.Proofs.LogicBlock.Unclosed
import RazorVash.Proofs.Loop.Places
import RazorVash.Proofs.Loop.Rewrites

namespace RazorVash.Loop
open Piece Draft

variable {text before opener rest helpersName : Text} {marks : LogicBlock.Placeholders}

/-- The loop that opens at `place` has this header: what is read for it is the template between its
opener and a brace, placeholders undone. -/
def HeaderAt (text : Text) (place : Nat) (header : LoopHeader) : Prop :=
  ∃ opener headerText rest : Text, IsOpener opener ∧
    text.drop place = opener ++ asWritten .standard headerText ++ '{' :: rest ∧
    LoopHeader.parse headerText = ((header.name, header.declared), .ok header.iterable)

/-- What is said of the loops at these places: each one is rewritten, with a note before if it does
not declare its variable, until one of them fails. Notes and the error quote the template from the
opener of their own loop on. -/
inductive Reports (text : Text) : List Nat → List Note → Except RewriteError Text → Prop
  | done {out : Text} : Reports text [] [] (.ok out)
  | rewrote {place : Nat} {places : List Nat} {header : LoopHeader} {notes : List Note}
      {result : Except RewriteError Text} (hHeader : HeaderAt text place header)
      (h : Reports text places notes result) :
      Reports text (place :: places)
        ((if header.declared then [] else [.undeclared header.name (text.drop place)]) ++
          .rewroteLoop header :: notes) result
  | stopped {place : Nat} {places : List Nat} {notes : List Note} {error : RewriteError}
      (hNotes : notes = [] ∨ ∃ name, notes = [.undeclared name (text.drop place)])
      (hError : error.excerpt = Text.excerpt (text.drop place)) :
      Reports text (place :: places) notes (.error error)

theorem Reports.map {places : List Nat} {notes : List Note} {result : Except RewriteError Text}
    (h : Reports text places notes result) (f : Text → Text) :
    Reports text places notes (result.map f) := by
  induction h with
  | done => exact .done
  | rewrote hHeader _ ih => exact .rewrote hHeader ih
  | stopped hNotes hError => exact .stopped hNotes hError

/-- The warnings are those of loops that do not declare their variable, in the order of their places,
each with the template from its own loop on. -/
theorem Reports.exists_warnings {places : List Nat} {notes : List Note}
    {result : Except RewriteError Text} (h : Reports text places notes result) :
    ∃ quoted : List (Nat × Text), (quoted.map Prod.fst).Sublist places ∧
      notes.filterMap Note.warning? =
        quoted.map fun q => Note.undeclaredMessage q.2 (text.drop q.1) := by
  induction h with
  | done => exact ⟨[], List.nil_sublist _, rfl⟩
  | @rewrote place places header notes result _ _ ih =>
    obtain ⟨quoted, hPlaces, hQuoted⟩ := ih
    cases hDeclared : header.declared with
    | true => exact ⟨quoted, hPlaces.cons place, hQuoted⟩
    | false =>
      exact ⟨(place, header.name) :: quoted, hPlaces.cons_cons place, congrArg (_ :: ·) hQuoted⟩
  | @stopped place places notes error hNotes _ =>
    rcases hNotes with rfl | ⟨name, rfl⟩
    · exact ⟨[], List.nil_sublist _, rfl⟩
    · exact ⟨[(place, name)], (List.nil_sublist _).cons_cons place, rfl⟩

section Pass
variable {d d₂ h e₁ e₂ : Draft} {pending : List Piece} {n place : Nat}

/-- The first loop of what is left, as a place of the template. -/
theorem drop_place (hRest : text.drop n = spell Mark.written (d ++ (opener.map .char ++ d₂))) :
    text.drop (n + (spell Mark.written d).length) = opener ++ spell Mark.written d₂ := by
  rw [← List.drop_drop, hRest, spell_append, List.drop_left, spell_append, spell_map_char]

theorem asWritten_place (hPlace : text.drop place = opener ++ spell Mark.written d₂)
    (hClean : Clean (opener.map .char ++ d₂)) :
    asWritten .standard (opener ++ spell Mark.placeholder d₂) = text.drop place := by
  have hSource := asWritten_spell hClean
  rw [spell_append, spell_append, spell_map_char, spell_map_char] at hSource
  rw [hSource, hPlace]

theorem headerAt_of_parse {header : LoopHeader} (ho : IsOpener opener)
    (hPlace : text.drop place = opener ++ spell Mark.written (h ++ .char '{' :: d₂))
    (hClean : Clean h)
    (hParsed : LoopHeader.parse (spell Mark.placeholder h) =
      ((header.name, header.declared), .ok header.iterable)) : HeaderAt text place header := by
  refine ⟨opener, spell Mark.placeholder h, spell Mark.written d₂, ho, ?_, hParsed⟩
  rw [hPlace, asWritten_spell hClean]
  simp

theorem drop_body (hPlace : text.drop place =
      opener ++ spell Mark.written (h ++ .char '{' :: (e₁ ++ brace :: e₂))) :
    text.drop (place + opener.length + (spell Mark.written h).length + 1) =
      spell Mark.written (e₁ ++ .mark .loopCloser :: e₂) := by
  have hSplit : opener ++ spell Mark.written (h ++ .char '{' :: (e₁ ++ brace :: e₂)) =
      (opener ++ spell Mark.written h ++ ['{']) ++ spell Mark.written (e₁ ++ brace :: e₂) := by
    simp
  rw [Nat.add_assoc, Nat.add_assoc, ← List.drop_drop, hPlace, hSplit, List.drop_left',
    spell_written_mark (by decide)]
  simp only [List.length_append, List.length_singleton]
  omega

theorem openerPlaces_body (hNoOpener : ∀ o, IsOpener o → ¬ o <:+: spell Mark.written h) :
    openerPlaces n (spell Mark.written (h ++ .char '{' :: (e₁ ++ brace :: e₂))) =
      openerPlaces (n + (spell Mark.written h).length + 1)
        (spell Mark.written (e₁ ++ .mark .loopCloser :: e₂)) := by
  rw [spell_append, spell_char, openerPlaces_header hNoOpener, spell_written_mark (by decide)]

theorem notes_undeclared (name source : Text) (declared : Bool) :
    (if declared then [] else [Note.undeclared name source]) = [] ∨
      ∃ other, (if declared then [] else [Note.undeclared name source]) =
        [.undeclared other source] := by
  cases declared with
  | true => exact .inl rfl
  | false => exact .inr ⟨name, rfl⟩

/-- The pass on a draft of the template from `n` on. The induction is on the opening braces that are
left, as in the pass itself. -/
theorem reports_rewrite (hRest : text.drop n = spell Mark.written d) (hClean : Clean d)
    (hPaired : Paired pending d) :
    Reports text (openerPlaces n (spell Mark.written d))
      (rewrite helpersName .standard (spell Mark.placeholder d)).notes
      (rewrite helpersName .standard (spell Mark.placeholder d)).result := by
  induction hn : (spell Mark.placeholder d).count '{' using Nat.strongRecOn
    generalizing d pending n with
  | ind k ih =>
    rcases hCut : cutOpener? (spell Mark.written d) with _ | ⟨before, opener, rest⟩
    · rw [openerPlaces_of_cutOpener?_eq_none hCut,
        rewrite_of_cutOpener?_eq_none (cutOpener?_spell_eq_none hCut)]
      exact .done
    · have ho := isOpener_of_cutOpener? hCut
      obtain ⟨d₀, d₂, rfl, rfl, rfl, hCut'⟩ := exists_of_cutOpener?_written hCut
      have hPlace := drop_place hRest
      rw [openerPlaces_of_cutOpener? hCut, rewrite_of_cutOpener? hCut',
        asWritten_place hPlace hClean.of_append_right]
      cases hSplit : headerAndBody? (spell Mark.placeholder d₂) with
      | none => exact .stopped (.inl rfl) rfl
      | some parts =>
        obtain ⟨headerText, body⟩ := parts
        obtain ⟨h, d', rfl, rfl, rfl, hNoOpener⟩ := exists_of_headerAndBody? hSplit
        rcases hParsed : LoopHeader.parse (spell Mark.placeholder h) with
          ⟨⟨name, declared⟩, fault | iterable⟩
        · -- what is noted of the variable stays, though the header fails
          dsimp only
          rw [LoopHeader.read_of_parse_error hParsed]
          dsimp only [Noted.bind]
          exact .stopped (notes_undeclared _ _ _) rfl
        · dsimp only
          rw [LoopHeader.read_of_parse (h := ⟨name, iterable, declared⟩) hParsed]
          dsimp only [Noted.bind]
          cases hMark : Brace.markMatchingClose (spell Mark.placeholder d') 0 closePlaceholder with
          | error e =>
            dsimp only [Noted.fail]
            rw [List.append_nil]
            exact .stopped (notes_undeclared _ _ _) rfl
          | ok parts =>
            obtain ⟨marked, i⟩ := parts
            have hFewer : marked.count '{' < k := by
              rw [← hn]
              exact count_left_lt hCut' hSplit hMark
            have hLoop : d₀ ++ (opener.map .char ++ (h ++ .char '{' :: d')) =
                (d₀ ++ opener.map .char ++ h) ++ .char '{' :: d' := by simp
            obtain ⟨e₁, e₂, rfl, rfl, hNext, pending', hPaired'⟩ :=
              exists_of_marked_loop hClean hPaired hLoop hMark
            have hHeader : HeaderAt text (n + (spell Mark.written d₀).length)
                ⟨name, iterable, declared⟩ :=
              headerAt_of_parse ho hPlace hClean.of_append_right.of_append_right.of_append_left hParsed
            have hReports := ih _ hFewer (drop_body hPlace) hNext hPaired' rfl
            rw [openerPlaces_body hNoOpener]
            exact .rewrote hHeader (hReports.map _)

end Pass

/-- Everything that a conversion reports quotes the template as written: a logic block that is never
closed the template after its opener, before any loop is looked at, and a loop the template from its
own opener on. The warnings come in text order. -/
theorem convert_diagnostics (text helpersName : Text) (hStem : ¬ placeholderStem <:+: text)
    (hLoop : hasOpener text) :
    (¬ LogicBlock.AllClosed text → ∃ p e, LogicBlock.FirstUnclosed text p ∧
      convert helpersName .standard text = ⟨[], .error (.block e)⟩ ∧
      e.excerpt = Text.excerpt (text.drop (p + LogicBlock.opener.length))) ∧
    (LogicBlock.AllClosed text → Reports text (openerPlaces 0 text)
        (convert helpersName .standard text).notes (convert helpersName .standard text).result ∧
      ∃ quoted : List (Nat × Text), quoted.Pairwise (·.1 < ·.1) ∧
        (∀ q ∈ quoted, q.1 ∈ openerPlaces 0 text) ∧
        (convert helpersName .standard text).warnings =
          quoted.map fun q => Note.undeclaredMessage q.2 (text.drop q.1)) := by
  constructor
  · intro hOpen
    obtain ⟨p, hp⟩ := LogicBlock.exists_firstUnclosed hOpen
    obtain ⟨e, he, hSource⟩ := LogicBlock.exists_protect_error hStem hp
    refine ⟨p, e, hp, ?_, congrArg Text.excerpt hSource⟩
    rw [convert, if_pos hLoop, he]
    rfl
  · intro hClosed
    obtain ⟨d, hProtect, hProtects⟩ := LogicBlock.exists_protect hStem hClosed
    have hWritten := hProtects.spell_written
    have hReports : Reports text (openerPlaces 0 (spell Mark.written d))
        (rewrite helpersName .standard (spell Mark.placeholder d)).notes
        (rewrite helpersName .standard (spell Mark.placeholder d)).result :=
      reports_rewrite hWritten.symm (hProtects.clean hStem) hProtects.paired
    rw [hWritten] at hReports
    rw [convert_of_protect hLoop hProtect]
    -- the places come in text order, and the warnings belong to some of them
    obtain ⟨quoted, hPlaces, hQuoted⟩ := hReports.exists_warnings
    refine ⟨hReports.map _, quoted, ?_, fun q hq => ?_, hQuoted⟩
    · exact List.pairwise_map.1 ((pairwise_openerPlaces 0 text).sublist hPlaces)
    · exact hPlaces.subset (List.mem_map_of_mem hq)

theorem convert_diagnostics_nested :
    let broken := "@foreach(x in xs) \x7b@\x7b a \x7d@\x7b \x7b@\x7bb\x7d \x7d".toList
    let text := ("@\x7b a \x7d@foreach(x in xs) \x7b@\x7b q \x7b\x7d \x7d" ++
      "@foreach (int y) \x7bz\x7d\x7d").toList
    ((¬ placeholderStem <:+: broken ∧ hasOpener broken ∧ ¬ LogicBlock.AllClosed broken) ∧
        ¬ placeholderStem <:+: text ∧ hasOpener text ∧ LogicBlock.AllClosed text) ∧
      (∃ p e, LogicBlock.FirstUnclosed broken p ∧
        convert "Html".toList .standard broken = ⟨[], .error (.block e)⟩ ∧
        e.excerpt = Text.excerpt (broken.drop (p + LogicBlock.opener.length))) ∧
      openerPlaces 0 text = [6, 34] ∧
      Reports text [6, 34] (convert "Html".toList .standard text).notes
        (convert "Html".toList .standard text).result ∧
      ∃ quoted : List (Nat × Text), quoted.Pairwise (·.1 < ·.1) ∧ (∀ q ∈ quoted, q.1 ∈ [6, 34]) ∧
        (convert "Html".toList .standard text).warnings =
          quoted.map fun q => Note.undeclaredMessage q.2 (text.drop q.1) := by
  intro broken text
  have hStem : ¬ placeholderStem <:+: broken := by decide +kernel
  have hLoop : hasOpener broken := by decide +kernel
  have hOpen : ¬ LogicBlock.AllClosed broken := by decide +kernel
  have hStem' : ¬ placeholderStem <:+: text := by decide +kernel
  have hLoop' : hasOpener text := by decide +kernel
  have hClosed : LogicBlock.AllClosed text := by decide +kernel
  have hPlaces : openerPlaces 0 text = [6, 34] := by decide +kernel
  refine ⟨⟨⟨hStem, hLoop, hOpen⟩, hStem', hLoop', hClosed⟩,
    (convert_diagnostics broken _ hStem hLoop).1 hOpen, hPlaces, ?_⟩
  rw [← hPlaces]
  exact (convert_diagnostics text _ hStem' hLoop').2 hClosed

end RazorVash.Loop
