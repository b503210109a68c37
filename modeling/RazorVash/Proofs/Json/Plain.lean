import RazorVash.Proofs.Json.Numeral
import RazorVash.Json.Writer
import RazorVash.Storage.Encoding

namespace RazorVash

def IsPlain (c : Char) : Prop := 32 ≤ c.toNat ∧ c.toNat ≤ 126

instance (c : Char) : Decidable (IsPlain c) := inferInstanceAs (Decidable (_ ∧ _))

def Plain (text : Text) : Prop := ∀ c ∈ text, IsPlain c

instance (text : Text) : Decidable (Plain text) := List.decidableBAll IsPlain text

variable {text more : Text} {c : Char}

theorem plain_append : Plain (text ++ more) ↔ Plain text ∧ Plain more := List.forall_mem_append

theorem plain_cons : Plain (c :: text) ↔ IsPlain c ∧ Plain text := List.forall_mem_cons

namespace Json

theorem plain_of_allDigits (h : AllDigits text) : Plain text := by
  intro c hc
  have hDigit := h c hc
  simp only [Char.isDigit, Bool.and_eq_true, decide_eq_true_eq] at hDigit
  have hLow : 48 ≤ c.toNat := hDigit.1
  have hHigh : c.toNat ≤ 57 := hDigit.2
  exact ⟨by omega, by omega⟩

theorem plain_toDigits (n : Nat) : Plain (Nat.toDigits 16 n) := by
  have hDigit : ∀ d < 16, IsPlain (Nat.digitChar d) := by decide
  induction n using Nat.strongRecOn with
  | ind n ih =>
    by_cases h : n < 16
    · rw [Nat.toDigits_of_lt_base h]
      exact plain_cons.2 ⟨hDigit n h, by decide⟩
    · rw [Nat.toDigits_of_base_le (by decide) (by omega)]
      exact plain_append.2 ⟨ih (n / 16) (by omega),
        plain_cons.2 ⟨hDigit (n % 16) (Nat.mod_lt _ (by decide)), by decide⟩⟩

theorem plain_escapeUnit (unit : Nat) : Plain (escapeUnit unit) := by
  refine plain_append.2 ⟨by decide, plain_append.2 ⟨?_, plain_toDigits unit⟩⟩
  intro c hc
  rw [List.eq_of_mem_replicate hc]
  decide

theorem plain_escapeChar (c : Char) : Plain (escapeChar c) := by
  unfold escapeChar
  simp only
  repeat (split; · decide)
  split
  · next h => exact plain_cons.2 ⟨h, by decide⟩
  · split
    · exact plain_escapeUnit _
    · exact plain_append.2 ⟨plain_escapeUnit _, plain_escapeUnit _⟩

theorem plain_quote (text : Text) : Plain (quote text) := by
  refine plain_append.2 ⟨plain_cons.2 ⟨by decide, ?_⟩, by decide⟩
  intro c hc
  obtain ⟨d, -, hEscaped⟩ := List.mem_flatMap.1 hc
  exact plain_escapeChar d c hEscaped

theorem IsReal.plain (h : IsReal text) : Plain text := by
  cases h with
  | fraction hw _ hf =>
    exact plain_append.2 ⟨plain_of_allDigits hw.allDigits,
      plain_cons.2 ⟨by decide, plain_of_allDigits hf⟩⟩
  | @scientific whole fraction ds sign hw hf hs _ hd =>
    have hSign : IsPlain sign := by rcases hs with rfl | rfl <;> decide
    have hPointed : Plain (pointed fraction) := by
      cases fraction with
      | nil => exact fun _ h => by cases h
      | cons d fraction => exact plain_cons.2 ⟨by decide, plain_of_allDigits hf⟩
    exact plain_append.2 ⟨plain_append.2 ⟨plain_of_allDigits hw.allDigits, hPointed⟩,
      plain_cons.2 ⟨by decide, plain_cons.2 ⟨hSign, plain_of_allDigits hd⟩⟩⟩

theorem plain_renderReal (x : Binary64) : Plain (renderReal x) := by
  cases x with
  | nan => decide
  | infinite negative => cases negative <;> decide
  | finite negative significand exponent =>
    obtain ⟨text, hReal, hText⟩ := Binary64.render_finite negative significand exponent
    rw [renderReal, hText]
    · split
      · exact plain_cons.2 ⟨by decide, hReal.plain⟩
      · exact hReal.plain
    all_goals intros; simp_all

theorem plain_ofInt (i : Int) : Plain (Text.ofInt i) := by
  unfold Text.ofInt
  split
  · exact plain_cons.2 ⟨by decide, plain_of_allDigits (allDigits_ofNat _)⟩
  · exact plain_of_allDigits (allDigits_ofNat _)

mutual

theorem plain_render : ∀ v : Json, Plain (render v)
  | null => by decide
  | bool value => by cases value <;> decide
  | whole value => plain_ofInt value
  | real value => plain_renderReal value
  | string value => plain_quote value
  | list items =>
    plain_append.2 ⟨plain_cons.2 ⟨by decide, plain_renderItems items⟩, by decide⟩
  | object members =>
    plain_append.2 ⟨plain_cons.2 ⟨by decide, plain_renderMembers members⟩, by decide⟩

theorem plain_renderItems : ∀ items : List Json, Plain (renderItems items)
  | [] => by decide
  | [item] => plain_render item
  | item :: next :: items =>
    plain_append.2 ⟨plain_append.2 ⟨plain_render item, by decide⟩, plain_renderItems (next :: items)⟩

theorem plain_renderMembers : ∀ members : List (Text × Json), Plain (renderMembers members)
  | [] => by decide
  | [(name, value)] =>
    plain_append.2 ⟨plain_append.2 ⟨plain_quote name, by decide⟩, plain_render value⟩
  | (name, value) :: next :: members =>
    plain_append.2 ⟨plain_append.2 ⟨plain_append.2 ⟨plain_append.2
      ⟨plain_quote name, by decide⟩, plain_render value⟩, by decide⟩,
      plain_renderMembers (next :: members)⟩

end

end Json

theorem decodeUtf8From_of_plain (h : Plain text) :
    ∀ position, Encoding.decodeUtf8From position (Encoding.encodeUtf8 text) = .ok text := by
  induction text with
  | nil => exact fun _ => by rw [Encoding.encodeUtf8, List.flatMap_nil, Encoding.decodeUtf8From]
  | cons c text ih =>
    intro position
    obtain ⟨hc, hText⟩ := plain_cons.1 h
    have hByte : Encoding.utf8Char c = [UInt8.ofNat c.toNat] := by
      simp only [Encoding.utf8Char]
      rw [if_pos (by have := hc.2; omega)]
    have hSequence : Encoding.sequenceOf (UInt8.ofNat c.toNat) = some (1, c.toNat) := by
      have hToNat : (UInt8.ofNat c.toNat).toNat = c.toNat := by
        rw [UInt8.toNat_ofNat']
        have := hc.2
        omega
      unfold Encoding.sequenceOf
      rw [if_pos, hToNat]
      rw [UInt8.lt_iff_toNat_lt, hToNat]
      have := hc.2
      exact Nat.lt_of_le_of_lt this (by decide)
    have hFits (rest : Bytes) : Encoding.fitting (UInt8.ofNat c.toNat) 1 rest = 0 := rfl
    rw [Encoding.encodeUtf8, List.flatMap_cons, hByte, List.singleton_append,
      Encoding.decodeUtf8From, hSequence]
    simp only [hFits, if_pos]
    rw [List.drop_zero, ← Encoding.encodeUtf8, ih hText]
    simp [Except.map, Encoding.joinBits]

/-- Plain text in a file is read as it was written. -/
theorem decode_encodeUtf8 (h : Plain text) :
    Encoding.utf8.decode (Encoding.encodeUtf8 text) = .ok text := by
  rw [Encoding.decode, decodeUtf8From_of_plain h]
  rfl

theorem unifyLines_of_plain (h : Plain text) : Encoding.unifyLines text = text := by
  induction text with
  | nil => rfl
  | cons c text ih =>
    obtain ⟨hc, hText⟩ := plain_cons.1 h
    have hReturn : c ≠ '\r' := by
      rintro rfl
      exact absurd hc (by decide)
    rw [Encoding.unifyLines, ih hText]
    · exact fun _ hc _ => hReturn hc
    · exact hReturn

end RazorVash
