import RazorVash.Proofs.Json.Quote
import RazorVash.Proofs.Json.Within

namespace RazorVash

def Binary64.reread (value : Binary64) : Binary64 :=
  match Json.readValue 0 (Json.renderReal value) with
  | .ok (.real other, _) => other
  | _ => value

namespace Json

mutual

/-- A value with its doubles as their text stands for them. -/
def reread : Json → Json
  | null => .null
  | bool value => .bool value
  | whole value => .whole value
  | real value => .real value.reread
  | string value => .string value
  | list items => .list (rereadItems items)
  | object members => .object (rereadMembers members)

def rereadItems : List Json → List Json
  | [] => []
  | item :: items => reread item :: rereadItems items

def rereadMembers : List (Text × Json) → List (Text × Json)
  | [] => []
  | (name, value) :: members => (name, reread value) :: rereadMembers members

end

variable {depth : Nat} {v : Json} {items : List Json} {members : Members} {text rest : Text}
  {value : Text → Reading Json}

theorem rereadItems_eq (items : List Json) : rereadItems items = items.map reread := by
  induction items with
  | nil => rfl
  | cons item items ih => rw [rereadItems, ih, List.map_cons]

theorem rereadMembers_eq (members : Members) :
    rereadMembers members = members.map fun member => (member.1, reread member.2) := by
  induction members with
  | nil => rfl
  | cons member members ih => rw [rereadMembers, ih, List.map_cons]

theorem names_rereadMembers (members : Members) :
    Entries.names (rereadMembers members) = members.names := by
  rw [rereadMembers_eq, Entries.names_map]

theorem find?_rereadMembers (members : Members) (name : Text) :
    Entries.find? name (rereadMembers members) = (members.find? name).map reread := by
  rw [rereadMembers_eq, Entries.find?_map]

theorem Exact.reread_eq (h : Exact v) : v.reread = v := by
  induction h with
  | null => rfl
  | bool => rfl
  | whole => rfl
  | string => rfl
  | list _ ih =>
    rw [reread, rereadItems_eq, List.map_congr_left ih, List.map_id']
  | object _ ih =>
    have hMember : ∀ member ∈ _, (member.1, reread member.2) = id member :=
      fun member hm => Prod.ext rfl (ih member hm)
    rw [reread, rereadMembers_eq, List.map_congr_left hMember, List.map_id]

theorem Exact.rereadMembers_eq_self (h : ∀ member ∈ members, Exact member.2) :
    rereadMembers members = members := by
  have := (Exact.object h).reread_eq
  rw [reread] at this
  exact Json.object.inj this

/-! ### Where values begin -/

/-- What every value begins with: no blank, and no end of a list or an object. -/
def IsHead (c : Char) : Prop := isSpace c = false ∧ c ≠ ']' ∧ c ≠ '\x7d' ∧ c ≠ '\ufeff'

theorem ne_of_isDigit {c d : Char} (h : c.isDigit) (hd : d.isDigit = false) : c ≠ d := by
  rintro rfl
  rw [h] at hd
  cases hd

theorem isHead_of_isDigit {c : Char} (h : c.isDigit) : IsHead c := by
  have hNot (d : Char) (hd : d.isDigit = false) : c ≠ d := ne_of_isDigit h hd
  refine ⟨?_, hNot _ rfl, hNot _ rfl, hNot _ rfl⟩
  simp [isSpace, hNot ' ' rfl, hNot '\t' rfl, hNot '\n' rfl, hNot '\r' rfl]

theorem skipSpace_of_isHead {c : Char} (h : IsHead c) : skipSpace (c :: rest) = c :: rest :=
  List.dropWhile_cons_of_neg (by simp [h.1])

theorem exists_digit_of_ofNat (n : Nat) : ∃ c t, Text.ofNat n = c :: t ∧ c.isDigit := by
  obtain ⟨c, t, h⟩ := List.exists_cons_of_ne_nil (isWhole_ofNat n).ne_nil
  exact ⟨c, t, h, allDigits_ofNat n c (h ▸ List.mem_cons_self)⟩

theorem exists_head_of_real (x : Binary64) : ∃ c t, renderReal x = c :: t ∧ IsHead c := by
  have hSign : IsHead '-' := by unfold IsHead; decide
  cases x with
  | nan => exact ⟨'N', _, rfl, by unfold IsHead; decide⟩
  | infinite negative => cases negative <;> exact ⟨_, _, rfl, by unfold IsHead; decide⟩
  | finite negative significand exponent =>
    obtain ⟨text, hReal, hText⟩ := Binary64.render_finite negative significand exponent
    obtain ⟨c, t, rfl, hc⟩ := hReal.exists_digit
    rw [renderReal, hText]
    · cases negative
      · exact ⟨c, t, rfl, isHead_of_isDigit hc⟩
      · exact ⟨'-', c :: t, rfl, hSign⟩
    all_goals intros; simp_all

theorem exists_head (v : Json) : ∃ c t, render v = c :: t ∧ IsHead c := by
  have hSign : IsHead '-' := by unfold IsHead; decide
  cases v with
  | null => exact ⟨'n', _, rfl, by unfold IsHead; decide⟩
  | bool value => cases value <;> exact ⟨_, _, rfl, by unfold IsHead; decide⟩
  | whole value =>
    rw [render, Text.ofInt]
    split
    · exact ⟨'-', _, rfl, hSign⟩
    · obtain ⟨c, t, h, hc⟩ := exists_digit_of_ofNat value.natAbs
      exact ⟨c, t, h, isHead_of_isDigit hc⟩
  | real value => exact exists_head_of_real value
  | string value => exact ⟨'"', _, rfl, by unfold IsHead; decide⟩
  | list items => exact ⟨'[', _, rfl, by unfold IsHead; decide⟩
  | object members => exact ⟨'{', _, rfl, by unfold IsHead; decide⟩

/-! ### Reading by the first character -/

theorem readValue_string : readValue depth ('"' :: text) =
    (readString ('"' :: text) text).map fun (s, rest) => (.string s, rest) := by
  rw [readValue.eq_def]
  rfl

theorem readValue_emptyList :
    readValue (depth + 1) ('[' :: ']' :: rest) = .ok (.list [], rest) := by
  rw [readValue.eq_def]
  rfl

theorem readValue_emptyObject :
    readValue (depth + 1) ('{' :: '\x7d' :: rest) = .ok (.object [], rest) := by
  rw [readValue.eq_def]
  rfl

theorem readValue_list {c : Char} (h : IsHead c) : readValue (depth + 1) ('[' :: c :: rest) =
    (readItems (readValue depth) (c :: rest)).map fun (items, rest) => (.list items, rest) := by
  rw [readValue.eq_def]
  simp only [skipSpace_of_isHead h]
  split
  · next he => exact absurd (List.cons.inj he).1 h.2.1
  · rfl

theorem readValue_object {c : Char} (h : IsHead c) : readValue (depth + 1) ('{' :: c :: rest) =
    (readMembers (readValue depth) (c :: rest)).map fun (members, rest) =>
      (.object (Entries.putAll [] members), rest) := by
  rw [readValue.eq_def]
  simp only [skipSpace_of_isHead h]
  split
  · next he => exact absurd (List.cons.inj he).1 h.2.2.1
  · rfl

theorem readValue_other {c : Char} (hs : c ≠ '"') (hl : c ≠ '[') (ho : c ≠ '{') :
    readValue depth (c :: rest) =
      match literal? (c :: rest) with
      | some (value, rest) => .ok (value, rest)
      | none => readNumber (c :: rest) := by
  rw [readValue.eq_def]
  simp only
  split
  · next he => exact absurd (List.cons.inj he).1 hs
  · next he => exact absurd (List.cons.inj he).1 hl
  · next he => exact absurd (List.cons.inj he).1 ho
  · rfl

theorem literal?_of_isDigit {c : Char} (h : c.isDigit) : literal? (c :: rest) = none := by
  have hNot (d : Char) (hd : d.isDigit = false) : ¬ d = c := fun he => ne_of_isDigit h hd he.symm
  simp [literal?, literals, Text.after?, hNot 'n' rfl, hNot 't' rfl, hNot 'f' rfl, hNot 'N' rfl,
    hNot 'I' rfl, hNot '-' rfl]

theorem literal?_of_sign {c : Char} (h : c.isDigit) : literal? ('-' :: c :: rest) = none := by
  have hNot : ¬ 'I' = c := fun he => ne_of_isDigit h rfl he.symm
  simp [literal?, literals, Text.after?, hNot]

theorem readValue_digit {c : Char} (h : c.isDigit) :
    readValue depth (c :: rest) = readUnsigned false (c :: rest) (c :: rest) := by
  rw [readValue_other (ne_of_isDigit h rfl) (ne_of_isDigit h rfl) (ne_of_isDigit h rfl),
    literal?_of_isDigit h]
  simp only
  rw [readNumber]
  exact fun _ he => ne_of_isDigit h rfl (List.cons.inj he).1

theorem readValue_sign {c : Char} (h : c.isDigit) :
    readValue depth ('-' :: c :: rest) = readUnsigned true ('-' :: c :: rest) (c :: rest) := by
  rw [readValue_other (by decide) (by decide) (by decide), literal?_of_sign h]
  rfl

/-! ### Reading what was written -/

theorem readValue_bool (value : Bool) :
    readValue depth (render (.bool value) ++ rest) = .ok (.bool value, rest) := by
  cases value <;> exact readValue_other (by decide) (by decide) (by decide)

theorem readValue_whole {value : Int} (h : (Text.ofNat value.natAbs).length ≤ mostDigits)
    (hr : EndsNumber rest) :
    readValue depth (render (.whole value) ++ rest) = .ok (.whole value, rest) := by
  obtain ⟨c, t, hText, hc⟩ := exists_digit_of_ofNat value.natAbs
  have hRead (negative : Bool) (start : Text) :=
    readUnsigned_whole negative start (isWhole_ofNat value.natAbs) h hr
  rw [natOf_ofNat, hText] at hRead
  rw [render, Text.ofInt, hText]
  split
  · have hValue : -(value.natAbs : Int) = value := by omega
    rw [List.cons_append, List.cons_append, readValue_sign hc, ← List.cons_append, hRead, if_pos rfl,
      hValue]
  · have hValue : (value.natAbs : Int) = value := by omega
    rw [List.cons_append, readValue_digit hc, ← List.cons_append, hRead, if_neg (by simp), hValue]

/-- A written double is a double again, the same one wherever its text stands. -/
theorem exists_readValue_real (x : Binary64) : ∃ y, ∀ depth rest, EndsNumber rest →
    readValue depth (renderReal x ++ rest) = .ok (.real y, rest) := by
  cases x with
  | nan => exact ⟨.nan, fun _ _ _ => readValue_other (by decide) (by decide) (by decide)⟩
  | infinite negative =>
    refine ⟨.infinite negative, fun _ _ _ => ?_⟩
    cases negative <;> exact readValue_other (by decide) (by decide) (by decide)
  | finite negative significand exponent =>
    obtain ⟨text, hReal, hText⟩ := Binary64.render_finite negative significand exponent
    obtain ⟨y, hRead⟩ := hReal.exists_readUnsigned negative
    obtain ⟨c, t, rfl, hc⟩ := hReal.exists_digit
    refine ⟨y, fun depth rest hr => ?_⟩
    have hWritten : renderReal (.finite negative significand exponent) =
        if negative then '-' :: c :: t else c :: t := hText
    rw [hWritten]
    cases negative
    · exact (readValue_digit hc).trans (hRead _ _ hr)
    · exact (readValue_sign hc).trans (hRead _ _ hr)

theorem readValue_real (x : Binary64) (hr : EndsNumber rest) :
    readValue depth (renderReal x ++ rest) = .ok (.real x.reread, rest) := by
  obtain ⟨y, hRead⟩ := exists_readValue_real x
  have hAlone : readValue 0 (renderReal x) = .ok (.real y, []) := by
    simpa using hRead 0 [] (by simp [EndsNumber])
  have hSame : x.reread = y := by simp [Binary64.reread, hAlone]
  rw [hSame, hRead depth rest hr]

theorem endsNumber_of_head {c : Char} (h : c = ',' ∨ c = ']' ∨ c = '\x7d') :
    EndsNumber (c :: rest) := by
  intro d hd
  obtain rfl := Option.some.inj hd
  rcases h with rfl | rfl | rfl <;> decide

theorem readItems_render (rest : Text) (hn : items ≠ [])
    (h : ∀ item ∈ items, ∀ rest, EndsNumber rest →
      value (render item ++ rest) = .ok (item.reread, rest)) :
    readItems value (renderItems items ++ ']' :: rest) = .ok (rereadItems items, rest) := by
  induction items with
  | nil => exact absurd rfl hn
  | cons item items ih =>
    have hFirst := h item List.mem_cons_self
    cases items with
    | nil =>
      rw [renderItems, readItems.eq_def, hFirst _ (endsNumber_of_head (by simp))]
      rfl
    | cons next items =>
      have hRest := ih (List.cons_ne_nil _ _) fun other ho => h other (List.mem_cons_of_mem _ ho)
      obtain ⟨c, t, hHead, hc⟩ : ∃ c t, renderItems (next :: items) ++ ']' :: rest = c :: t ∧
          IsHead c := by
        obtain ⟨c, t, ht, hc⟩ := exists_head next
        cases items <;> simp [renderItems, ht, hc]
      have hText : renderItems (item :: next :: items) ++ ']' :: rest =
          render item ++ ',' :: ' ' :: (renderItems (next :: items) ++ ']' :: rest) := by
        simp [renderItems]
      have hSkip : skipSpace (' ' :: c :: t) = c :: t := skipSpace_of_isHead hc
      rw [hHead] at hRest hText
      rw [hText, readItems.eq_def, hFirst _ (endsNumber_of_head (by simp))]
      have hComma : skipSpace (',' :: ' ' :: c :: t) = ',' :: ' ' :: c :: t := rfl
      have hShorter : (c :: t).length < (render item ++ ',' :: ' ' :: c :: t).length := by
        simp only [List.length_append, List.length_cons]
        omega
      simp only [hComma, hSkip, hShorter, dif_pos, hRest]
      rfl

theorem member_text (name tail : Text) (v : Json) : quote name ++ ": ".toList ++ render v ++ tail =
    '"' :: (name.flatMap escapeChar ++ '"' :: ':' :: ' ' :: (render v ++ tail)) := by
  simp [quote]

theorem skipSpace_beforeValue (v : Json) (tail : Text) :
    skipSpace (' ' :: (render v ++ tail)) = render v ++ tail := by
  obtain ⟨c, t, hv, hc⟩ := exists_head v
  rw [hv]
  exact skipSpace_of_isHead hc

theorem skipSpace_colon (text : Text) : skipSpace (':' :: text) = ':' :: text := rfl

section Member
variable {name tail : Text} {w : Json} (hValue : value (render v ++ tail) = .ok (w, tail))
include hValue

theorem readMembers_last (hTail : skipSpace tail = '\x7d' :: rest) :
    readMembers value (quote name ++ ": ".toList ++ render v ++ tail) = .ok ([(name, w)], rest) := by
  rw [member_text, readMembers.eq_def]
  simp only [readString_quoted, skipSpace_colon, skipSpace_beforeValue, hValue, hTail]

theorem readMembers_next {more : Text} (hTail : skipSpace tail = ',' :: more)
    (hShorter : (skipSpace more).length < tail.length)
    (hRest : readMembers value (skipSpace more) = .ok (members, rest)) :
    readMembers value (quote name ++ ": ".toList ++ render v ++ tail) =
      .ok ((name, w) :: members, rest) := by
  have hLess : (skipSpace more).length <
      (name.flatMap escapeChar ++ '"' :: ':' :: ' ' :: (render v ++ tail)).length := by
    simp only [List.length_append, List.length_cons]
    omega
  rw [member_text, readMembers.eq_def]
  simp only [readString_quoted, skipSpace_colon, skipSpace_beforeValue, hValue, hTail, dif_pos hLess,
    hRest, Except.map]

end Member

theorem readMembers_render (rest : Text) (hn : members ≠ [])
    (h : ∀ member ∈ members, ∀ rest, EndsNumber rest →
      value (render member.2 ++ rest) = .ok (member.2.reread, rest)) :
    readMembers value (renderMembers members ++ '\x7d' :: rest) =
      .ok (rereadMembers members, rest) := by
  induction members with
  | nil => exact absurd rfl hn
  | cons member members ih =>
    obtain ⟨name, v⟩ := member
    have hFirst := h (name, v) List.mem_cons_self
    cases members with
    | nil =>
      rw [renderMembers]
      exact readMembers_last (hFirst _ (endsNumber_of_head (by simp))) rfl
    | cons next members =>
      have hRest := ih (List.cons_ne_nil _ _) fun other ho => h other (List.mem_cons_of_mem _ ho)
      obtain ⟨t, hHead⟩ : ∃ t, renderMembers (next :: members) ++ '\x7d' :: rest = '"' :: t := by
        cases members <;> simp [renderMembers, quote]
      have hText : renderMembers ((name, v) :: next :: members) ++ '\x7d' :: rest =
          quote name ++ ": ".toList ++ render v ++
            ',' :: ' ' :: (renderMembers (next :: members) ++ '\x7d' :: rest) := by
        simp [renderMembers]
      have hSkip : skipSpace (' ' :: '"' :: t) = '"' :: t := rfl
      rw [hHead] at hRest hText
      rw [hText, rereadMembers]
      exact readMembers_next (hFirst _ (endsNumber_of_head (by simp))) rfl (by simp [hSkip]) hRest

theorem readValue_render (h : Within depth v) :
    ∀ rest, EndsNumber rest → readValue depth (render v ++ rest) = .ok (v.reread, rest) := by
  induction h with
  | null => exact fun _ _ => readValue_other (by decide) (by decide) (by decide)
  | bool value => exact fun _ _ => readValue_bool value
  | whole h => exact fun _ hr => readValue_whole h hr
  | real value => exact fun _ hr => readValue_real value hr
  | string value =>
    intro rest _
    have hText : render (.string value) ++ rest =
        '"' :: (value.flatMap escapeChar ++ '"' :: rest) := by
      simp [render, quote]
    rw [hText, readValue_string, readString_quoted]
    rfl
  | @list depth items _ ih =>
    intro rest _
    cases items with
    | nil => exact readValue_emptyList
    | cons item items =>
      have hItems := readItems_render rest (List.cons_ne_nil item items) ih
      have hText : render (.list (item :: items)) ++ rest =
          '[' :: (renderItems (item :: items) ++ ']' :: rest) := by
        simp [render]
      -- no item begins like the end of a list, so the list is not taken for an empty one
      obtain ⟨c, t, hHead, hc⟩ : ∃ c t, renderItems (item :: items) ++ ']' :: rest = c :: t ∧
          IsHead c := by
        obtain ⟨c, t, ht, hc⟩ := exists_head item
        cases items <;> simp [renderItems, ht, hc]
      rw [hHead] at hItems hText
      rw [hText, readValue_list hc, hItems]
      rfl
  | @object depth members hNames _ ih =>
    intro rest _
    cases members with
    | nil => exact readValue_emptyObject
    | cons member members =>
      have hMembers := readMembers_render rest (List.cons_ne_nil member members) ih
      have hText : render (.object (member :: members)) ++ rest =
          '{' :: (renderMembers (member :: members) ++ '\x7d' :: rest) := by
        simp [render]
      obtain ⟨t, hHead⟩ : ∃ t, renderMembers (member :: members) ++ '\x7d' :: rest = '"' :: t := by
        cases members <;> simp [renderMembers, quote]
      have hQuote : IsHead '"' := by unfold IsHead; decide
      rw [hHead] at hMembers hText
      rw [hText, readValue_object hQuote, hMembers]
      -- the names are all different, so every member comes last when it is put in
      have hKept : Entries.putAll [] (rereadMembers (member :: members)) =
          rereadMembers (member :: members) := by
        apply Entries.putAll_of_nodup
        rw [List.nil_append, names_rereadMembers]
        exact hNames
      simp only [Except.map, hKept, reread]

/-- The text of a value is read as that value. -/
theorem read_render (h : Within deepest v) : read (render v) = .ok v.reread := by
  obtain ⟨c, t, hText, hc⟩ := exists_head v
  have hRead := readValue_render h [] (by simp [EndsNumber])
  rw [List.append_nil, hText] at hRead
  rw [hText, read.eq_def]
  split
  · next he => exact absurd (List.cons.inj he).1 hc.2.2.2
  · rw [skipSpace_of_isHead hc, hRead]
    rfl

theorem read_render_of_exact (h : Within deepest v) (he : Exact v) : read (render v) = .ok v := by
  rw [read_render h, he.reread_eq]

end Json

end RazorVash
