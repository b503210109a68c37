import RazorVash.Json.Reader
import RazorVash.Json.Writer

namespace RazorVash.Json

variable {opening text rest : Text} {c d : Char} {n : Nat}

/-! ### Units -/

theorem hexDigit?_digitChar : ∀ d < 16, hexDigit? (Nat.digitChar d) = some d := by
  decide

theorem hex_one (h : n < 16) : Text.hex 1 n = [Nat.digitChar n] := by
  simp [Text.hex, Nat.toDigits_of_lt_base h]

theorem hex_succ (width : Nat) (hw : 0 < width) :
    Text.hex (width + 1) n = Text.hex width (n / 16) ++ [Nat.digitChar (n % 16)] := by
  by_cases h : n < 16
  · obtain ⟨w, rfl⟩ : ∃ w, width = w + 1 := ⟨width - 1, by omega⟩
    have hZero : n / 16 = 0 := Nat.div_eq_of_lt h
    have hSelf : n % 16 = n := Nat.mod_eq_of_lt h
    have hPad : List.replicate (w + 1) '0' = List.replicate w '0' ++ ['0'] :=
      List.replicate_succ'
    simp [Text.hex, Nat.toDigits_of_lt_base h, hZero, hSelf, hPad]
  · have hDigits : Nat.toDigits 16 n = Nat.toDigits 16 (n / 16) ++ [Nat.digitChar (n % 16)] :=
      Nat.toDigits_of_base_le (by decide) (by omega)
    simp [Text.hex, hDigits]

theorem unit?_hex (h : n < 0x10000) :
    unit? (Text.hex 4 n ++ c :: rest) = some (n, c :: rest) := by
  have hDigit (k : Nat) : hexDigit? (Nat.digitChar (k % 16)) = some (k % 16) :=
    hexDigit?_digitChar _ (Nat.mod_lt _ (by decide))
  have hFirst : hexDigit? (Nat.digitChar (n / 16 / 16 / 16)) = some (n / 16 / 16 / 16) :=
    hexDigit?_digitChar _ (by omega)
  have hValue : ((n / 16 / 16 / 16 * 16 + n / 16 / 16 % 16) * 16 + n / 16 % 16) * 16 + n % 16 = n := by
    omega
  rw [hex_succ 3 (by decide), hex_succ 2 (by decide), hex_succ 1 (by decide),
    hex_one (n := n / 16 / 16 / 16) (by omega)]
  simp only [List.cons_append, List.nil_append, unit?, hFirst, hDigit, Option.bind_eq_bind,
    Option.bind_some, hValue, Option.pure_def]

theorem isHighUnit_iff : isHighUnit n ↔ 0xD800 ≤ n ∧ n < 0xDC00 := by
  simp [isHighUnit]

theorem isLowUnit_iff : isLowUnit n ↔ 0xDC00 ≤ n ∧ n < 0xE000 := by
  simp [isLowUnit]

/-- No character is half of a pair of units. -/
theorem not_surrogate (c : Char) : c.toNat < 0xD800 ∨ 0xDFFF < c.toNat ∧ c.toNat < 0x110000 :=
  c.valid

theorem charOfUnit_toNat (c : Char) : charOfUnit c.toNat = c := by
  have hValid := not_surrogate c
  have hHigh : isHighUnit c.toNat = false := by
    rw [Bool.eq_false_iff, Ne, isHighUnit_iff]
    omega
  have hLow : isLowUnit c.toNat = false := by
    rw [Bool.eq_false_iff, Ne, isLowUnit_iff]
    omega
  simp [charOfUnit, hHigh, hLow]

theorem escapedChar_unit (h : c.toNat < 0x10000) :
    escapedChar (Text.hex 4 c.toNat ++ d :: rest) = .ok (c, d :: rest) := by
  have hValid := not_surrogate c
  have hHigh : isHighUnit c.toNat = false := by
    rw [Bool.eq_false_iff, Ne, isHighUnit_iff]
    omega
  simp only [escapedChar, unit?_hex h, hHigh, Bool.false_eq_true, if_false, charOfUnit_toNat]

theorem length_hex_four (n : Nat) : 4 ≤ (Text.hex 4 n).length := by
  simp only [Text.hex, List.length_append, List.length_replicate]
  omega

theorem escapedChar_pair {high low : Nat} (hHigh : isHighUnit high) (hLow : isLowUnit low)
    (hValue : 0x10000 + (high - 0xD800) * 0x400 + (low - 0xDC00) = c.toNat) :
    escapedChar (Text.hex 4 high ++ '\\' :: 'u' :: (Text.hex 4 low ++ d :: rest)) =
      .ok (c, d :: rest) := by
  have hHighUnit : high < 0x10000 := Nat.lt_trans (isHighUnit_iff.1 hHigh).2 (by decide)
  have hLowUnit : low < 0x10000 := Nat.lt_trans (isLowUnit_iff.1 hLow).2 (by decide)
  have hLong : ¬ (Text.hex 4 low ++ d :: rest).length < 5 := by
    have := length_hex_four low
    simp only [List.length_append, List.length_cons]
    omega
  rw [escapedChar, unit?_hex hHighUnit]
  simp only [hHigh, if_true, hLong, if_false]
  rw [unit?_hex hLowUnit]
  simp only [hLow, if_true, hValue, Char.ofNat_toNat]

/-! ### One piece of a string -/

def afterChar (c : Char) (reading : Reading Text) : Reading Text :=
  reading.map fun (cs, left) => (c :: cs, left)

theorem readString_quote : readString opening ('"' :: rest) = .ok ([], rest) := by
  rw [readString.eq_def]
  rfl

theorem readString_plain (hq : c ≠ '"') (hb : c ≠ '\\') (h : 32 ≤ c.toNat) :
    readString opening (c :: rest) = afterChar c (readString opening rest) := by
  rw [readString.eq_def]
  split
  · next he => cases he
  · next he => exact absurd (List.cons.inj he).1 hq
  · next he => exact absurd (List.cons.inj he).1 hb
  · next he => exact absurd (List.cons.inj he).1 hb
  · next he => exact absurd (List.cons.inj he).1 hb
  · next he =>
    obtain ⟨rfl, rfl⟩ := List.cons.inj he
    exact if_neg (Nat.not_lt.2 h)

theorem readString_escape (hu : c ≠ 'u') (h : simpleEscape? c = some d) :
    readString opening ('\\' :: c :: rest) = afterChar d (readString opening rest) := by
  rw [readString.eq_def]
  split
  · next he => cases he
  · next he => exact absurd (List.cons.inj he).1 (by decide)
  · next he => cases he
  · next he => exact absurd (List.cons.inj (List.cons.inj he).2).1 hu
  · next he =>
    obtain ⟨rfl, rfl⟩ := List.cons.inj (List.cons.inj he).2
    rw [h]
    rfl
  · next hNot he =>
    obtain ⟨rfl, rfl⟩ := List.cons.inj he
    exact absurd rfl (hNot c rest rfl)

theorem readString_unit {left : Text} (h : escapedChar text = .ok (d, left))
    (hl : left.length < text.length) :
    readString opening ('\\' :: 'u' :: text) = afterChar d (readString opening left) := by
  rw [readString.eq_def]
  simp only [h, dif_pos hl]
  rfl

/-! ### Whole strings -/

theorem readString_escapeUnit (h : c.toNat < 0x10000) :
    readString opening (escapeUnit c.toNat ++ d :: rest) =
      afterChar c (readString opening (d :: rest)) := by
  have hLength := length_hex_four c.toNat
  apply readString_unit (escapedChar_unit h)
  rw [List.length_append]
  omega

theorem readString_escapePair {high low : Nat} (hHigh : isHighUnit high) (hLow : isLowUnit low)
    (hValue : 0x10000 + (high - 0xD800) * 0x400 + (low - 0xDC00) = c.toNat) :
    readString opening (escapeUnit high ++ escapeUnit low ++ d :: rest) =
      afterChar c (readString opening (d :: rest)) := by
  have hText : escapeUnit high ++ escapeUnit low ++ d :: rest =
      '\\' :: 'u' :: (Text.hex 4 high ++ '\\' :: 'u' :: (Text.hex 4 low ++ d :: rest)) := by
    simp [escapeUnit]
  rw [hText]
  apply readString_unit (escapedChar_pair hHigh hLow hValue)
  simp only [List.length_append, List.length_cons]
  omega

theorem readString_beyondUnit (h : 0x10000 ≤ c.toNat) :
    readString opening (escapeUnit (0xD800 + (c.toNat - 0x10000) / 0x400) ++
        escapeUnit (0xDC00 + (c.toNat - 0x10000) % 0x400) ++ d :: rest) =
      afterChar c (readString opening (d :: rest)) := by
  have hValid := not_surrogate c
  apply readString_escapePair
  · rw [isHighUnit_iff]
    omega
  · rw [isLowUnit_iff]
    omega
  · omega

theorem readString_escapeChar (c : Char) :
    readString opening (escapeChar c ++ d :: rest) =
      afterChar c (readString opening (d :: rest)) := by
  have hEscape {e f : Char} (hu : e ≠ 'u') (h : simpleEscape? e = some f) :
      readString opening ('\\' :: e :: d :: rest) = afterChar f (readString opening (d :: rest)) :=
    readString_escape hu h
  unfold escapeChar
  split
  · next h => subst h; exact hEscape (by decide) rfl
  split
  · next h => subst h; exact hEscape (by decide) rfl
  split
  · next h => subst h; exact hEscape (by decide) rfl
  split
  · next h => subst h; exact hEscape (by decide) rfl
  split
  · next h => subst h; exact hEscape (by decide) rfl
  split
  · next h => subst h; exact hEscape (by decide) rfl
  split
  · next h => subst h; exact hEscape (by decide) rfl
  simp only
  split
  · next hq hb _ _ _ _ _ hShown => exact readString_plain hq hb hShown.1
  split
  · next h => exact readString_escapeUnit h
  · next h => exact readString_beyondUnit (Nat.not_lt.1 h)

/-- A string that is written between quotes is read up to its closing quote. -/
theorem readString_quoted (text rest : Text) :
    readString opening (text.flatMap escapeChar ++ '"' :: rest) = .ok (text, rest) := by
  induction text with
  | nil => exact readString_quote
  | cons c text ih =>
    obtain ⟨d, tail, hTail⟩ : ∃ d tail, text.flatMap escapeChar ++ '"' :: rest = d :: tail :=
      List.exists_cons_of_ne_nil (by simp)
    rw [List.flatMap_cons, List.append_assoc, hTail, readString_escapeChar, ← hTail, ih]
    rfl

end RazorVash.Json
