import RazorVash.Proofs.Loop.Rewrites

namespace RazorVash.Loop

/-- The turns that the pass takes on a text, as far as it comes. -/
inductive Takes : Text → {other : Text} → Turn other → Prop
  | first {text : Text} (t : Turn text) : Takes text t
  | later {text other : Text} {s : Turn other} (t : Turn text) (h : Takes t.marked s) : Takes text s

/-- The loops that a pass notes are the ones of its turns. -/
theorem Rewrites.rewroteLoop_mem_iff {helpersName text out : Text}
    {marks : LogicBlock.Placeholders} {notes : List Note} {header : LoopHeader}
    (h : Rewrites helpersName marks text out notes) :
    .rewroteLoop header ∈ notes ↔
      ∃ (other : Text) (t : Turn other), Takes text t ∧ t.header = header := by
  induction h with
  | done hNone =>
    constructor
    · intro hm
      cases hm
    · rintro ⟨other, t, hTakes, -⟩
      cases hTakes with
      | first r => exact nomatch hNone.symm.trans r.cut
      | later r => exact nomatch hNone.symm.trans r.cut
  | turn t _ ih =>
    rw [List.mem_append, t.mem_notes_iff, ih]
    constructor
    · rintro (rfl | ⟨other, s, hTakes, rfl⟩)
      · exact ⟨_, t, .first t, rfl⟩
      · exact ⟨other, s, .later t hTakes, rfl⟩
    · rintro ⟨other, s, hTakes, rfl⟩
      cases hTakes with
      | first r => exact .inl (by rw [r.eq t])
      | later r hLater => exact .inr ⟨other, s, r.eq t ▸ hLater, rfl⟩

/-- The parentheses of a text pair up, so that a closing one after it belongs to an opening one
before it: the depth, counted from 1, stays above 0 in the text and is 1 at its end. -/
def Balanced (text : Text) : Prop :=
  (∀ p, p <+: text → p.count ')' ≤ p.count '(') ∧ text.count ')' = text.count '('

def Plain (text : Text) : Prop :=
  '"' ∉ text ∧ '\'' ∉ text ∧ ¬ "//".toList <:+: text ∧ ¬ "/*".toList <:+: text

/-- The parenthesis that ends the iterable is the one that belongs to the opener, and only blanks are
between it and the brace. -/
def Turn.EndsOwnHeader {text : Text} (t : Turn text) : Prop :=
  ∃ a b c : Text, t.headerText = a ++ LoopHeader.inKeyword ++ b ++ ')' :: c ∧ ')' ∉ c ∧
    t.header.iterable = b.trim ∧ Balanced (a ++ LoopHeader.inKeyword ++ b) ∧ c.allBlank

/-- What follows an opener is a header without braces up to its own parenthesis, blanks, and the
brace of a body. -/
def HasOwnBody (rest : Text) : Prop :=
  ∃ header blanks body : Text, rest = header ++ ')' :: (blanks ++ '{' :: body) ∧ '{' ∉ header ∧
    Balanced header ∧ blanks.allBlank

/-- Every loop of a template that is converted ends its own header, where quotes and comments do not
hide parentheses. -/
def KeepsHeaders (helpersName text : Text) : Prop :=
  (convert helpersName .standard text).result.isOk →
    ∀ guarded, LogicBlock.protect .standard text = .ok guarded →
      ∀ (other : Text) (t : Turn other), Takes guarded t → Plain t.headerText → t.EndsOwnHeader

variable {text : Text}

theorem notMem_of_allBlank {blanks : Text} {c : Char} (h : blanks.allBlank)
    (hc : isBlank c = false) : c ∉ blanks := by
  intro hm
  have := List.all_eq_true.1 h c hm
  rw [hc] at this
  cases this

namespace Turn

theorem exists_iterable (t : Turn text) :
    ∃ a b c : Text, t.headerText = a ++ LoopHeader.inKeyword ++ b ++ ')' :: c ∧ ')' ∉ c ∧
      t.header.iterable = b.trim := by
  have hParsed : (LoopHeader.parse t.headerText).2 = .ok t.header.iterable :=
    congrArg Prod.snd t.parsed
  obtain ⟨a, b, c, hText, hc, -, hIterable⟩ := LoopHeader.exists_of_parse hParsed
  exact ⟨a, b, c, by simpa using hText, hc, hIterable⟩

theorem endsOwnHeader_iff (t : Turn text) : t.EndsOwnHeader ↔ HasOwnBody t.rest := by
  obtain ⟨hRest, hBrace, -⟩ := headerAndBody?_eq_some t.split
  constructor
  · rintro ⟨a, b, c, hText, -, -, hBalanced, hBlank⟩
    rw [hText] at hRest hBrace
    refine ⟨a ++ LoopHeader.inKeyword ++ b, c, t.body, by simpa using hRest, ?_, hBalanced, hBlank⟩
    exact fun hm => hBrace (List.mem_append_left _ hm)
  · rintro ⟨header, blanks, body, hOwn, hHeader, hBalanced, hBlank⟩
    have hNoBrace : '{' ∉ header ++ ')' :: blanks := by
      have := notMem_of_allBlank (c := '{') hBlank (by decide)
      simp [hHeader, this]
    have hSame : t.headerText ++ '{' :: t.body = (header ++ ')' :: blanks) ++ '{' :: body := by
      rw [← hRest, hOwn]
      simp
    obtain ⟨hHeaderText, -⟩ := Text.append_inj_of_notMem hBrace hNoBrace hSame
    -- blanks have no parenthesis, so the header's own one is the last one
    obtain ⟨a, b, c, hText, hc, hIterable⟩ := t.exists_iterable
    have hNoParenthesis := notMem_of_allBlank (c := ')') hBlank (by decide)
    obtain ⟨rfl, rfl⟩ := Text.append_inj_of_notMem_right hNoParenthesis hc
      (hHeaderText.symm.trans hText)
    exact ⟨a, b, blanks, hText, hc, hIterable, hBalanced, hBlank⟩

end Turn

/-- A template that is converted keeps its headers exactly if each loop has a body of its own. -/
theorem keepsHeaders_iff (helpersName text : Text) : KeepsHeaders helpersName text ↔
    ((convert helpersName .standard text).result.isOk →
      ∀ guarded, LogicBlock.protect .standard text = .ok guarded →
        ∀ (other : Text) (t : Turn other), Takes guarded t → Plain t.headerText →
          HasOwnBody t.rest) := by
  constructor
  · intro h hOk guarded hGuarded other t hTakes hPlain
    exact t.endsOwnHeader_iff.1 (h hOk guarded hGuarded other t hTakes hPlain)
  · intro h hOk guarded hGuarded other t hTakes hPlain
    exact t.endsOwnHeader_iff.2 (h hOk guarded hGuarded other t hTakes hPlain)

/-- A loop without a body takes the next brace, and the text up to it ends up in the iterable. -/
theorem not_keepsHeaders_borrowed_brace :
    let text := "@foreach(var x in xs) <p>@x</p> @if(a) \x7b b \x7d".toList
    (convert "Html".toList .standard text).result =
        .ok "@Html.foreach(xs) <p>@x</p> @if(a, function(x) \x7b b \x7d)".toList ∧
      ¬ KeepsHeaders "Html".toList text := by
  intro text
  have hOk : (convert "Html".toList .standard text).result =
      .ok "@Html.foreach(xs) <p>@x</p> @if(a, function(x) \x7b b \x7d)".toList :=
    Outcome.eq_ok_of_toOption (by decide +kernel)
  have hGuarded : LogicBlock.protect .standard text = .ok text :=
    Outcome.eq_ok_of_toOption (by decide +kernel)
  let t : Turn text := {
    before := []
    opener := "@foreach(".toList
    rest := "var x in xs) <p>@x</p> @if(a) \x7b b \x7d".toList
    headerText := "var x in xs) <p>@x</p> @if(a) ".toList
    body := " b \x7d".toList
    header := ⟨"x".toList, "xs) <p>@x</p> @if(a".toList, true⟩
    marked := " b ++VASH_LOOP_CLOSE++".toList
    cut := by decide +kernel
    split := by decide +kernel
    parsed := Prod.ext (by decide +kernel) (Outcome.eq_ok_of_toOption (by decide +kernel))
    closed := ⟨3, Outcome.eq_ok_of_toOption (by decide +kernel)⟩ }
  have hPlain : Plain t.headerText :=
    ⟨by decide +kernel, by decide +kernel, by decide +kernel, by decide +kernel⟩
  refine ⟨hOk, fun h => ?_⟩
  obtain ⟨a, b, c, hText, hc, -, hBalanced, -⟩ :=
    h (Outcome.isOk_iff.2 ⟨_, hOk⟩) text hGuarded text t (.first t) hPlain
  have hSplit : "var x in xs) <p>@x</p> @if(a".toList ++ ')' :: [' '] =
      (a ++ LoopHeader.inKeyword ++ b) ++ ')' :: c := hText
  obtain ⟨hLast, -⟩ := Text.append_inj_of_notMem_right (by decide) hc hSplit
  -- the depth is 0 already at the first parenthesis that closes
  rw [← hLast] at hBalanced
  have hDepth := hBalanced.1 "var x in xs)".toList ⟨" <p>@x</p> @if(a".toList, by decide +kernel⟩
  revert hDepth
  decide +kernel

end RazorVash.Loop
