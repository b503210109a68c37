import RazorVash.Proofs.Brace.Closer
import RazorVash.Proofs.Loop.Opener

namespace RazorVash.Loop

/-- A loop of a template: the place of its opener, the text between opener and brace, and the place
of its brace. -/
structure Site where
  start : Nat
  headerText : Text
  brace : Nat
deriving DecidableEq, Repr

variable {text before opener rest headerText body : Text} {cursor : Nat} {sites : List Site}

theorem length_body_lt (hCut : cutOpener? text = some (before, opener, rest))
    (hBrace : Text.cut? ['{'] rest = some (headerText, body)) : body.length < text.length := by
  have hText := congrArg List.length (cutOpener?_eq_some hCut)
  have hRest := Text.length_lt_of_cut? (List.cons_ne_nil _ _) hBrace
  simp only [List.length_append] at hText
  omega

/-- The loops of the text from `cursor` on, which is at the brace of a loop or at the beginning. A
loop's brace is the first one after its opener, and nothing is given when a loop has none. -/
def sitesFrom (cursor : Nat) (text : Text) : Option (List Site) :=
  match _ : cutOpener? text with
  | none => some []
  | some (before, opener, rest) =>
    match _ : Text.cut? ['{'] rest with
    | none => none
    | some (headerText, body) =>
      let start := cursor + before.length
      let brace := start + opener.length + headerText.length
      (sitesFrom (brace + 1) body).map (⟨start, headerText, brace⟩ :: ·)
termination_by text.length
decreasing_by exact length_body_lt ‹_› ‹_›

namespace Site

def closer? (text : Text) (site : Site) : Option Int :=
  (Brace.findMatchingClose text (site.brace + 1 : Nat)).toOption

def covers (site : Site) (i : Nat) : Bool := site.start ≤ i && i ≤ site.brace

/-- The call for the header, if it can be read. -/
def call (helpersName : Text) (site : Site) : Text :=
  match LoopHeader.parse site.headerText with
  | ((name, declared), .ok iterable) => callOpener helpersName ⟨name, iterable, declared⟩
  | (_, .error _) => []

/-- A loop with a header that can be read, no brace or opener in it and no `@` before its brace, and
a closing brace. -/
structure WellFormed (text : Text) (site : Site) : Prop where
  noCloser : '}' ∉ site.headerText
  noOpener : hasOpener site.headerText = false
  noLogicOpener : site.headerText.getLast? ≠ some '@'
  parsed : (LoopHeader.parse site.headerText).2.isOk
  closed : (Brace.findMatchingClose text (site.brace + 1 : Nat)).isOk

instance (text : Text) (site : Site) : Decidable (site.WellFormed text) :=
  decidable_of_iff ('}' ∉ site.headerText ∧ hasOpener site.headerText = false ∧
      site.headerText.getLast? ≠ some '@' ∧ (LoopHeader.parse site.headerText).2.isOk ∧
      (Brace.findMatchingClose text (site.brace + 1 : Nat)).isOk)
    ⟨fun ⟨hCloser, hOpener, hLast, hParsed, hClosed⟩ =>
        ⟨hCloser, hOpener, hLast, hParsed, hClosed⟩,
      fun h => ⟨h.noCloser, h.noOpener, h.noLogicOpener, h.parsed, h.closed⟩⟩

end Site

/-- What takes the place of the character `c` at `i`: the end of a call for the closing brace of a
loop, the call for the first character of a loop and nothing for the others up to its brace. -/
def editAt (helpersName text : Text) (sites : List Site) (c : Char) (i : Nat) : Text :=
  if sites.any fun site => site.closer? text = some (i : Int) then callClose
  else
    match sites.find? (·.covers i) with
    | none => [c]
    | some site => if i = site.start then site.call helpersName else []

/-- The part of the template that begins at `start`, with every loop rewritten at its place. -/
def editFrom (helpersName text : Text) (sites : List Site) (start : Nat) (part : Text) : Text :=
  (part.zipIdx start).flatMap fun (c, i) => editAt helpersName text sites c i

def editAll (helpersName text : Text) (sites : List Site) : Text :=
  editFrom helpersName text sites 0 text

theorem sitesFrom_of_cutOpener?_eq_none (h : cutOpener? text = none) :
    sitesFrom cursor text = some [] := by
  rw [sitesFrom]
  split
  · rfl
  · next hs =>
    rw [h] at hs
    cases hs

theorem exists_of_sitesFrom (hCut : cutOpener? text = some (before, opener, rest))
    (h : sitesFrom cursor text = some sites) :
    ∃ headerText body site more, Text.cut? ['{'] rest = some (headerText, body) ∧
      site = Site.mk (cursor + before.length) headerText
        (cursor + before.length + opener.length + headerText.length) ∧
      sites = site :: more ∧ sitesFrom (site.brace + 1) body = some more := by
  rw [sitesFrom] at h
  split at h
  · next hn =>
    rw [hCut] at hn
    cases hn
  · next hs =>
    rw [hCut] at hs
    cases hs
    split at h
    · cases h
    · next headerText body hBrace =>
      obtain ⟨more, hMore, rfl⟩ := Option.map_eq_some_iff.1 h
      exact ⟨headerText, body, _, more, hBrace, rfl, rfl, hMore⟩

theorem le_of_mem_sitesFrom (h : sitesFrom cursor text = some sites) {site : Site}
    (hs : site ∈ sites) : cursor ≤ site.start ∧ site.start < site.brace := by
  induction hn : text.length using Nat.strongRecOn generalizing text cursor sites with
  | ind n ih =>
    rcases hCut : cutOpener? text with _ | ⟨before, opener, rest⟩
    · rw [sitesFrom_of_cutOpener?_eq_none hCut] at h
      obtain rfl := Option.some.inj h
      cases hs
    · obtain ⟨headerText, body, first, more, hBrace, rfl, rfl, hMore⟩ := exists_of_sitesFrom hCut h
      have hOpener := List.length_pos_iff.2 (isOpener_of_cutOpener? hCut).ne_nil
      rcases List.mem_cons.1 hs with rfl | hs
      · constructor
        · exact Nat.le_add_right _ _
        · dsimp only
          omega
      · have hBody : body.length < n := hn ▸ length_body_lt hCut hBrace
        obtain ⟨hStart, hLt⟩ := ih _ hBody hMore hs rfl
        dsimp only at hStart
        exact ⟨by omega, hLt⟩

theorem brace_lt_of_closer? {site : Site} {i : Nat} (h : site.closer? text = some (i : Int)) :
    ∃ n, Brace.closerOffset 0 (text.drop (site.brace + 1)) = .ok n ∧ i = site.brace + 1 + n := by
  obtain ⟨n, hn, hi⟩ := Brace.findMatchingClose_eq_ok.1 (Outcome.eq_ok_of_toOption h)
  exact ⟨n, hn, by omega⟩

section Edit
variable {helpersName u v : Text} {start i : Nat} {c : Char} {site : Site}

theorem editAt_of_closer (hSite : site ∈ sites) (h : site.closer? text = some (i : Int)) :
    editAt helpersName text sites c i = callClose := by
  rw [editAt, if_pos (List.any_eq_true.2 ⟨site, hSite, decide_eq_true h⟩)]

theorem editAt_of_not_closer (h : ¬ ∃ site ∈ sites, site.closer? text = some (i : Int)) :
    editAt helpersName text sites c i =
      match sites.find? (·.covers i) with
      | none => [c]
      | some site => if i = site.start then site.call helpersName else [] := by
  rw [editAt, if_neg]
  intro hAny
  obtain ⟨site, hs, hi⟩ := List.any_eq_true.1 hAny
  exact h ⟨site, hs, of_decide_eq_true hi⟩

theorem editFrom_append : editFrom helpersName text sites start (u ++ v) =
    editFrom helpersName text sites start u ++
      editFrom helpersName text sites (start + u.length) v := by
  rw [editFrom, List.zipIdx_append, List.flatMap_append]
  rfl

theorem editFrom_loop (hLength : start + u.length = site.brace + 1) (hStart : site.start = start)
    (hu : u ≠ [])
    (hClosers : ∀ i, start ≤ i → i ≤ site.brace →
      ¬ ∃ site ∈ sites, site.closer? text = some (i : Int))
    (hCovers : ∀ i, start ≤ i → i ≤ site.brace → sites.find? (·.covers i) = some site) :
    editFrom helpersName text sites start u = site.call helpersName := by
  obtain ⟨c, u, rfl⟩ := List.exists_cons_of_ne_nil hu
  rw [List.length_cons] at hLength
  have hHead : editAt helpersName text sites c start = site.call helpersName := by
    rw [editAt_of_not_closer (hClosers start (Nat.le_refl _) (by omega)),
      hCovers start (Nat.le_refl _) (by omega)]
    exact if_pos hStart.symm
  -- after the call for the first character nothing is left for the others
  have hTail : (u.zipIdx (start + 1)).flatMap
      (fun (c, i) => editAt helpersName text sites c i) = [] := by
    rw [List.flatMap_eq_nil_iff]
    rintro ⟨e, i⟩ hm
    have hLow := List.le_snd_of_mem_zipIdx hm
    have hHigh := List.snd_lt_add_of_mem_zipIdx hm
    dsimp only at hLow hHigh ⊢
    rw [editAt_of_not_closer (hClosers i (by omega) (by omega)), hCovers i (by omega) (by omega)]
    exact if_neg (by omega)
  rw [editFrom, List.zipIdx_cons, List.flatMap_cons, hTail, List.append_nil]
  exact hHead

end Edit

end RazorVash.Loop
