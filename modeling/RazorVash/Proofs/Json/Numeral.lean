import RazorVash.Json.Reader
import RazorVash.Json.Writer

namespace RazorVash.Json

variable {ds whole fraction rest start text : Text} {negative : Bool} {c sign : Char}

def AllDigits (ds : Text) : Prop := ∀ d ∈ ds, d.isDigit

/-- A zero alone, or digits of which the first one is no zero. -/
def IsWhole (ds : Text) : Prop := ds = ['0'] ∨ AllDigits ds ∧ ∃ c t, ds = c :: t ∧ c ≠ '0'

def EndsNumber (rest : Text) : Prop :=
  ∀ c ∈ rest.head?, c.isDigit = false ∧ c ≠ '.' ∧ c ≠ 'e' ∧ c ≠ 'E'

def pointed : Text → Text
  | [] => []
  | fraction => '.' :: fraction

inductive IsReal : Text → Prop
  | fraction {whole fraction : Text} : IsWhole whole → fraction ≠ [] → AllDigits fraction →
    IsReal (whole ++ '.' :: fraction)
  | scientific {whole fraction ds : Text} {sign : Char} : IsWhole whole → AllDigits fraction →
    sign = '-' ∨ sign = '+' → ds ≠ [] → AllDigits ds →
    IsReal (whole ++ pointed fraction ++ 'e' :: sign :: ds)

/-! ### Digits -/

theorem AllDigits.append {ds' : Text} (h : AllDigits ds) (h' : AllDigits ds') :
    AllDigits (ds ++ ds') := by
  intro d hd
  rcases List.mem_append.1 hd with hd | hd
  · exact h d hd
  · exact h' d hd

theorem allDigits_replicate (n : Nat) : AllDigits (List.replicate n '0') := by
  intro d hd
  rw [(List.mem_replicate.1 hd).2]
  decide

theorem allDigits_ofNat (n : Nat) : AllDigits (Text.ofNat n) :=
  fun _ hd => Nat.isDigit_of_mem_toDigits (by decide) (by decide) hd

theorem allDigits_decimal (width n : Nat) : AllDigits (Text.decimal width n) :=
  (allDigits_replicate _).append (allDigits_ofNat n)

theorem decimal_ne_nil (width n : Nat) : Text.decimal width n ≠ [] := by
  intro h
  exact Nat.toDigits_ne_nil (List.append_eq_nil_iff.1 h).2

theorem head_ofNat {n : Nat} (h : 0 < n) : ∃ c t, Text.ofNat n = c :: t ∧ c ≠ '0' := by
  rw [Text.ofNat]
  induction n using Nat.strongRecOn with
  | ind n ih =>
    by_cases hn : n < 10
    · rw [Nat.toDigits_of_lt_base hn]
      exact ⟨_, [], rfl, fun hc => by rw [Nat.digitChar_eq_zero] at hc; omega⟩
    · obtain ⟨c, t, ht, hc⟩ := ih (n / 10) (by omega) (by omega)
      rw [Nat.toDigits_of_base_le (by decide) (by omega), ht]
      exact ⟨c, _, rfl, hc⟩

theorem isWhole_ofNat (n : Nat) : IsWhole (Text.ofNat n) := by
  rcases Nat.eq_zero_or_pos n with rfl | h
  · exact .inl rfl
  · exact .inr ⟨allDigits_ofNat n, head_ofNat h⟩

theorem IsWhole.allDigits (h : IsWhole ds) : AllDigits ds := by
  rcases h with rfl | ⟨h, -⟩
  · exact allDigits_replicate 1
  · exact h

theorem IsWhole.ne_nil (h : IsWhole ds) : ds ≠ [] := by
  rcases h with rfl | ⟨-, c, t, rfl, -⟩ <;> exact List.cons_ne_nil _ _

theorem natOf_ofNat (n : Nat) : natOf (Text.ofNat n) = n := by
  have hFold : natOf (Text.ofNat n) = Nat.ofDigitChars 10 (Text.ofNat n) 0 := by
    simp only [natOf, Nat.ofDigitChars_eq_foldl, Nat.mul_comm]
  rw [hFold]
  exact Nat.ofDigitChars_toDigits (by decide) (by decide)

/-! ### Parts of a number -/

theorem digits_append (hd : AllDigits ds) (hr : ∀ c ∈ rest.head?, c.isDigit = false) :
    digits (ds ++ rest) = ds := by
  have hRest : rest.takeWhile Char.isDigit = [] := by
    cases rest with
    | nil => rfl
    | cons c rest => exact List.takeWhile_cons_of_neg (by simp [hr c rfl])
  rw [digits, List.takeWhile_append_of_pos hd, hRest, List.append_nil]

theorem wholeDigits_append (hw : IsWhole whole) (hr : ∀ c ∈ rest.head?, c.isDigit = false) :
    wholeDigits (whole ++ rest) = whole := by
  rcases hw with rfl | ⟨hd, c, t, rfl, hc⟩
  · rfl
  · rw [wholeDigits.eq_def]
    split
    · next he => exact absurd (List.cons.inj he).1 hc
    · exact digits_append hd hr

theorem fractionDigits_pointed (hf : AllDigits fraction)
    (hr : ∀ c ∈ rest.head?, c.isDigit = false ∧ c ≠ '.') :
    fractionDigits (pointed fraction ++ rest) = fraction := by
  cases fraction with
  | nil =>
    cases rest with
    | nil => rfl
    | cons c rest =>
      rw [pointed, List.nil_append, fractionDigits.eq_def]
      split
      · next he => exact absurd (List.cons.inj he).1 (hr c rfl).2
      · rfl
  | cons d fraction => exact digits_append hf fun c hc => (hr c hc).1

theorem exponent?_of_endsNumber (h : EndsNumber rest) : exponent? rest = none := by
  cases rest with
  | nil => rfl
  | cons c rest =>
    obtain ⟨-, -, he, hE⟩ := h c rfl
    rw [exponent?.eq_def]
    exact if_neg (not_or.2 ⟨he, hE⟩)

theorem exponent?_append (hs : sign = '-' ∨ sign = '+') (hn : ds ≠ []) (hd : AllDigits ds)
    (hr : ∀ c ∈ rest.head?, c.isDigit = false) :
    exponent? ('e' :: sign :: (ds ++ rest)) =
      some (if sign = '-' then -(natOf ds : Int) else natOf ds, 2 + ds.length) := by
  have hDigits := digits_append hd hr
  rw [exponent?.eq_def]
  rcases hs with rfl | rfl <;> simp [hDigits, hn]

/-! ### Numbers without a sign -/

theorem drop_whole : (whole ++ rest).drop whole.length = rest := List.drop_left

theorem drop_pointed (fraction rest : Text) : (if fraction = [] then pointed fraction ++ rest
    else (pointed fraction ++ rest).drop (1 + fraction.length)) = rest := by
  cases fraction with
  | nil => rfl
  | cons d fraction =>
    have hLength : 1 + (d :: fraction).length = (pointed (d :: fraction)).length := by
      simp [pointed, Nat.add_comm]
    rw [if_neg (List.cons_ne_nil d fraction), hLength, List.drop_left]

theorem readUnsigned_whole (negative : Bool) (start : Text) (hw : IsWhole whole)
    (hl : whole.length ≤ mostDigits) (hr : EndsNumber rest) :
    readUnsigned negative start (whole ++ rest) =
      .ok (.whole (if negative then -(natOf whole : Int) else natOf whole), rest) := by
  have hWhole : wholeDigits (whole ++ rest) = whole := wholeDigits_append hw fun c hc => (hr c hc).1
  have hNone : AllDigits [] := by simp [AllDigits]
  have hFraction : fractionDigits rest = [] :=
    fractionDigits_pointed hNone fun c hc => ⟨(hr c hc).1, (hr c hc).2.1⟩
  simp only [readUnsigned, hWhole, hw.ne_nil, if_false, drop_whole, hFraction, if_true,
    exponent?_of_endsNumber hr, Nat.not_lt.2 hl]

theorem readUnsigned_fraction (hw : IsWhole whole) (hn : fraction ≠ []) (hf : AllDigits fraction)
    (hr : EndsNumber rest) : readUnsigned negative start (whole ++ '.' :: fraction ++ rest) =
      .ok (.real (Binary64.ofDecimal negative (natOf (whole ++ fraction)) (-fraction.length)),
        rest) := by
  obtain ⟨d, more, rfl⟩ := List.exists_cons_of_ne_nil hn
  have hText : whole ++ '.' :: d :: more ++ rest = whole ++ (pointed (d :: more) ++ rest) := by
    simp [pointed]
  have hWhole : wholeDigits (whole ++ (pointed (d :: more) ++ rest)) = whole :=
    wholeDigits_append hw (by simp [pointed])
  have hFraction : fractionDigits (pointed (d :: more) ++ rest) = d :: more :=
    fractionDigits_pointed hf fun c hc => ⟨(hr c hc).1, (hr c hc).2.1⟩
  have hDrop := drop_pointed (d :: more) rest
  rw [if_neg hn] at hDrop
  simp only [hText, readUnsigned, hWhole, hw.ne_nil, if_false, drop_whole, hFraction, hn, hDrop,
    exponent?_of_endsNumber hr]

theorem readUnsigned_scientific (hw : IsWhole whole) (hf : AllDigits fraction)
    (hs : sign = '-' ∨ sign = '+') (hn : ds ≠ []) (hd : AllDigits ds) (hr : EndsNumber rest) :
    readUnsigned negative start (whole ++ pointed fraction ++ 'e' :: sign :: ds ++ rest) =
      .ok (.real (Binary64.ofDecimal negative (natOf (whole ++ fraction))
        ((if sign = '-' then -(natOf ds : Int) else natOf ds) - fraction.length)), rest) := by
  have hText : whole ++ pointed fraction ++ 'e' :: sign :: ds ++ rest =
      whole ++ (pointed fraction ++ 'e' :: sign :: (ds ++ rest)) := by
    simp
  have hWhole : wholeDigits (whole ++ (pointed fraction ++ 'e' :: sign :: (ds ++ rest))) = whole := by
    apply wholeDigits_append hw
    cases fraction <;> simp [pointed]
  have hFraction : fractionDigits (pointed fraction ++ 'e' :: sign :: (ds ++ rest)) = fraction :=
    fractionDigits_pointed hf (by simp)
  have hExponent := exponent?_append hs hn hd fun c hc => (hr c hc).1
  have hLeft : ('e' :: sign :: (ds ++ rest)).drop (2 + ds.length) = rest := by
    rw [Nat.add_comm]
    simp
  simp only [hText, readUnsigned, hWhole, hw.ne_nil, if_false, drop_whole, hFraction, drop_pointed,
    hExponent, hLeft]

/-- A text with a point or an exponent stands for one double, whatever comes after it. -/
theorem IsReal.exists_readUnsigned (h : IsReal text) (negative : Bool) :
    ∃ x, ∀ start rest, EndsNumber rest →
      readUnsigned negative start (text ++ rest) = .ok (.real x, rest) := by
  cases h with
  | fraction hw hn hf => exact ⟨_, fun _ _ hr => readUnsigned_fraction hw hn hf hr⟩
  | scientific hw hf hs hn hd => exact ⟨_, fun _ _ hr => readUnsigned_scientific hw hf hs hn hd hr⟩

theorem IsReal.exists_digit (h : IsReal text) : ∃ c t, text = c :: t ∧ c.isDigit := by
  have hHead {whole tail : Text} (hw : IsWhole whole) : ∃ c t, whole ++ tail = c :: t ∧ c.isDigit := by
    obtain ⟨c, t, rfl⟩ := List.exists_cons_of_ne_nil hw.ne_nil
    exact ⟨c, t ++ tail, rfl, hw.allDigits c List.mem_cons_self⟩
  cases h with
  | fraction hw _ _ => exact hHead hw
  | scientific hw _ _ _ _ =>
    rw [List.append_assoc]
    exact hHead hw

end RazorVash.Json

namespace RazorVash.Binary64
open Json

variable {ds : Text}

/-! ### How doubles are written -/

theorem isReal_layout {d : Char} {more : Text} (hd : d ≠ '0') (h : AllDigits (d :: more))
    (point : Int) : IsReal (layout (d :: more) point) := by
  have hMore : AllDigits more := fun c hc => h c (List.mem_cons_of_mem _ hc)
  have hFirst : IsWhole [d] := .inr ⟨fun c hc => h c (List.mem_append_left more hc), d, [], rfl, hd⟩
  unfold layout
  split
  · split
    · -- the point stands before all digits
      have hText : "0.".toList ++ List.replicate point.natAbs '0' ++ d :: more =
          ['0'] ++ '.' :: (List.replicate point.natAbs '0' ++ d :: more) := by
        simp
      rw [hText]
      exact .fraction (.inl rfl) (by simp) ((allDigits_replicate _).append h)
    · split
      · refine .fraction (.inr ⟨h.append (allDigits_replicate _), d, _, rfl, hd⟩) (by simp) ?_
        exact allDigits_replicate 1
      · -- the point stands between two of the digits
        obtain ⟨n, hn⟩ : ∃ n, point.toNat = n + 1 := ⟨point.toNat - 1, by omega⟩
        rw [hn, List.take_succ_cons, List.drop_succ_cons]
        refine .fraction (.inr ⟨?_, d, _, rfl, hd⟩) ?_ ?_
        · intro c hc
          rcases List.mem_cons.1 hc with rfl | hc
          · exact h _ List.mem_cons_self
          · exact hMore c (List.mem_of_mem_take hc)
        · intro hNil
          have := List.drop_eq_nil_iff.1 hNil
          simp only [List.length_cons] at *
          omega
        · exact fun c hc => hMore c (List.mem_of_mem_drop hc)
  · have hMantissa : (if (d :: more).length = 1 then d :: more
        else (d :: more).take 1 ++ '.' :: (d :: more).drop 1) = [d] ++ pointed more := by
      cases more <;> simp [pointed]
    simp only [hMantissa]
    refine .scientific hFirst hMore ?_ (decimal_ne_nil _ _) (allDigits_decimal _ _)
    split <;> simp

theorem scaled_fst_pos {base value : Nat} (hb : 0 < base) (hv : 0 < value) (exponent : Int) :
    0 < (scaled base value exponent).1 := by
  unfold scaled
  split
  · exact hv
  · exact Nat.mul_pos hv (Nat.pow_pos hb)

theorem scaled_snd_pos {base : Nat} (hb : 0 < base) (value : Nat) (exponent : Int) :
    0 < (scaled base value exponent).2 := by
  unfold scaled
  split
  · exact Nat.pow_pos hb
  · exact Nat.one_pos

theorem scaled_zero (base : Nat) (exponent : Int) : (scaled base 0 exponent).1 = 0 := by
  unfold scaled
  split <;> simp

theorem not_readsBack_zero {significand : Nat} (h : 0 < significand) (exponent place : Int) :
    readsBack significand exponent 0 place = false := by
  have hDenominator := scaled_snd_pos (show 0 < 10 by decide) 0 place
  have hLow : 0 < (if significand = leastFull ∧ exponent > smallestExponent then
      quotient (4 * significand - 1) (exponent - 2)
      else quotient (2 * significand - 1) (exponent - 1)).1 := by
    split <;> exact scaled_fst_pos (by decide) (by omega) _
  have hProduct := Nat.mul_pos hLow hDenominator
  unfold readsBack
  simp only [scaled_zero, Nat.zero_mul]
  split
  · simp only [Bool.and_eq_false_iff, decide_eq_false_iff_not]
    exact .inl (by omega)
  · simp only [Bool.and_eq_false_iff, decide_eq_false_iff_not]
    exact .inl (by omega)

theorem of_firstThat {p : Nat → Bool} {a b value : Nat} {place place' : Int}
    (h : (if p a then some (a, place) else if p b then some (b, place) else none) =
      some (value, place')) : p value ∧ place = place' := by
  split at h
  · next hp =>
    obtain ⟨rfl, rfl⟩ := Prod.mk.inj (Option.some.inj h)
    exact ⟨hp, rfl⟩
  · split at h
    · next hp =>
      obtain ⟨rfl, rfl⟩ := Prod.mk.inj (Option.some.inj h)
      exact ⟨hp, rfl⟩
    · cases h

theorem readsBack_of_nearestWith {count significand value : Nat} {exponent place : Int}
    (h : nearestWith count significand exponent = some (value, place)) :
    readsBack significand exponent value place := by
  unfold nearestWith at h
  obtain ⟨hRead, rfl⟩ :=
    of_firstThat (p := fun candidate => readsBack significand exponent candidate _) h
  exact hRead

/-- Either there are digits, the first one no zero, or there are none and the point stands alone. -/
theorem digitsAndPoint_cases {significand : Nat} (h : 0 < significand) (exponent : Int) :
    (∃ d more, (digitsAndPoint significand exponent).1 = d :: more ∧ d ≠ '0' ∧
        AllDigits (d :: more)) ∨
      digitsAndPoint significand exponent = ([], 1) := by
  unfold digitsAndPoint
  rw [if_neg (Nat.ne_of_gt h)]
  cases hShort : (List.range 17).findSome? fun count => nearestWith (count + 1) significand exponent with
  | none =>
    right
    simp [shortest, hShort, Text.ofNat]
  | some best =>
    left
    obtain ⟨value, place⟩ := best
    obtain ⟨count, -, hNear⟩ := List.exists_of_findSome?_eq_some hShort
    have hValue : 0 < value := by
      rcases Nat.eq_zero_or_pos value with rfl | hv
      · have := readsBack_of_nearestWith hNear
        rw [not_readsBack_zero h] at this
        cases this
      · exact hv
    obtain ⟨d, more, hDigits, hd⟩ := head_ofNat hValue
    have hAll := allDigits_ofNat value
    have hShortest : shortest significand exponent = (value, place) := by simp [shortest, hShort]
    simp only [hShortest, hDigits] at hAll ⊢
    -- the first digit is no zero, so it is not among those that are trimmed off
    obtain ⟨kept, hKept⟩ : ∃ kept, ((d :: more).reverse.dropWhile (· = '0')).reverse = d :: kept := by
      rw [List.reverse_cons, List.dropWhile_append]
      split
      · exact ⟨[], by simp [hd]⟩
      · exact ⟨(more.reverse.dropWhile (· = '0')).reverse, by simp⟩
    refine ⟨d, kept, hKept, hd, fun c hc => hAll c ?_⟩
    rw [← hKept, List.mem_reverse] at hc
    exact List.mem_reverse.1 ((List.dropWhile_suffix _).subset hc)

theorem isReal_shown (significand : Nat) (exponent : Int) :
    IsReal (layout (digitsAndPoint significand exponent).1
      (digitsAndPoint significand exponent).2) := by
  have hZero : IsReal (['0'] ++ '.' :: ['0']) :=
    .fraction (.inl rfl) (by simp) (allDigits_replicate 1)
  rcases Nat.eq_zero_or_pos significand with rfl | h
  · exact hZero
  · rcases digitsAndPoint_cases h exponent with ⟨d, more, hDigits, hd, hAll⟩ | hNone
    · rw [hDigits]
      exact isReal_layout hd hAll _
    · rw [hNone]
      exact hZero

theorem render_finite (negative : Bool) (significand : Nat) (exponent : Int) :
    ∃ text, IsReal text ∧
      (finite negative significand exponent).render = if negative then '-' :: text else text :=
  ⟨_, isReal_shown significand exponent, rfl⟩

end RazorVash.Binary64
