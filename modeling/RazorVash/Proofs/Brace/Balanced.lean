import RazorVash.Proofs.Brace.Closer

namespace RazorVash.Brace

/-- Braces that pair up: none, or a block with what stands in it and what comes after it. -/
inductive Balanced : Text → Prop
  | nil : Balanced []
  | block {u v : Text} : Balanced u → Balanced v → Balanced ('{' :: (u ++ '}' :: v))

def braces (text : Text) : Text := text.filter fun c => c = '{' || c = '}'

structure ClosesAt (text : Text) (start i : Nat) : Prop where
  le : start ≤ i
  closer : text[i]? = some '}'
  balanced : Balanced (braces ((text.take i).drop start))

/-- The search fails for want of braces, and not because of where it starts. -/
def Refuses (text : Text) (start : Nat) : Prop :=
  ∃ e, findMatchingClose text start = .error e ∧ e.fault ≠ .startOutside

/-- As many closing braces are missing at the end of the text as blocks are left open in it. Fewer of
them do not help, and the last one of as many closes the block. -/
structure Lacks (text : Text) (start missing : Nat) : Prop where
  count : (missing : Int) = 1 + (text.drop start).count '{' - (text.drop start).count '}'
  pos : 1 ≤ missing
  fewer : ∀ k < missing, Refuses (text ++ List.replicate k '}') start
  enough : ∃ last, (text ++ List.replicate missing '}').length = last + 1 ∧
    findMatchingClose (text ++ List.replicate missing '}') start = .ok (last : Nat)

variable {text u v w : Text} {k n d start : Nat} {c : Char}

/-! ### Words of braces -/

/-- Braces that close `depth` blocks one after the other, and pair up between. -/
inductive Closing : (depth : Nat) → Text → Prop
  | nil : Closing 0 []
  | opener {depth : Nat} {w : Text} : Closing (depth + 1) w → Closing depth ('{' :: w)
  | closer {depth : Nat} {w : Text} : Closing depth w → Closing (depth + 1) ('}' :: w)

theorem closing_cons_opener : Closing k ('{' :: w) ↔ Closing (k + 1) w := by
  constructor
  · rintro (_ | h)
    exact h
  · exact .opener

theorem closing_succ_closer : Closing (k + 1) ('}' :: w) ↔ Closing k w := by
  constructor
  · rintro (_ | _ | h)
    exact h
  · exact .closer

theorem Balanced.closing_append (h : Balanced u) (hw : Closing k w) : Closing k (u ++ w) := by
  induction h generalizing k w with
  | nil => exact hw
  | @block u v _ _ ihu ihv =>
    have hBlock : Closing k ('{' :: (u ++ '}' :: (v ++ w))) := .opener (ihu (.closer (ihv hw)))
    simpa using hBlock

/-- The first block that is closed ends after a balanced word. -/
theorem Closing.balanced_or_exists (h : Closing k w) : (k = 0 ∧ Balanced w) ∨
    ∃ u v depth, k = depth + 1 ∧ w = u ++ '}' :: v ∧ Balanced u ∧ Closing depth v := by
  induction hn : w.length using Nat.strongRecOn generalizing k w with
  | ind n ih =>
    subst hn
    cases h with
    | nil => exact .inl ⟨rfl, .nil⟩
    | @closer depth w h => exact .inr ⟨[], w, depth, rfl, rfl, .nil, h⟩
    | @opener _ w h =>
      -- what is open first in the rest is the block of this brace
      rcases ih w.length (by simp) h rfl with ⟨hk, -⟩ | ⟨u, v, depth, hk, rfl, hu, hRest⟩
      · cases hk
      · obtain rfl := Nat.succ.inj hk
        rcases ih v.length (by simp; omega) hRest rfl with
          ⟨rfl, hv⟩ | ⟨u', v', depth, rfl, rfl, hu', hv'⟩
        · exact .inl ⟨rfl, .block hu hv⟩
        · exact .inr ⟨'{' :: (u ++ '}' :: u'), v', depth, rfl, by simp, .block hu hu', hv'⟩

theorem closing_zero_iff : Closing 0 w ↔ Balanced w := by
  constructor
  · intro h
    rcases h.balanced_or_exists with ⟨-, h⟩ | ⟨_, _, _, hk, -⟩
    · exact h
    · cases hk
  · intro h
    simpa using h.closing_append .nil

theorem Closing.count_eq (h : Closing k w) : w.count '}' = k + w.count '{' := by
  induction h with
  | nil => rfl
  | opener _ ih => simp [ih]; omega
  | closer _ ih => simp [ih]; omega

theorem Closing.count_prefix_le (h : Closing k w) (hu : u <+: w) :
    u.count '}' ≤ k + u.count '{' := by
  induction h generalizing u with
  | nil => simp [List.prefix_nil.1 hu]
  | opener _ ih =>
    cases u with
    | nil => simp
    | cons c u =>
      obtain ⟨rfl, hRest⟩ := List.cons_prefix_cons.1 hu
      have := ih hRest
      simp; omega
  | closer _ ih =>
    cases u with
    | nil => simp
    | cons c u =>
      obtain ⟨rfl, hRest⟩ := List.cons_prefix_cons.1 hu
      have := ih hRest
      simp; omega

/-! ### The scan -/

theorem braces_append : braces (u ++ v) = braces u ++ braces v := List.filter_append ..

theorem braces_cons_opener : braces ('{' :: u) = '{' :: braces u := rfl

theorem braces_cons_other (ho : c ≠ '{') (hc : c ≠ '}') : braces (c :: u) = braces u :=
  List.filter_cons_of_neg (by simp [ho, hc])

theorem closing_of_closerOffset (h : closerOffset k text = .ok n) :
    ∃ u v, text = u ++ '}' :: v ∧ u.length = n ∧ Closing k (braces u) := by
  induction text generalizing k n with
  | nil => cases h
  | cons c text ih =>
    by_cases ho : c = '{'
    · subst ho
      rw [closerOffset_cons_opener] at h
      obtain ⟨m, hm, rfl⟩ := Outcome.map_eq_ok h
      obtain ⟨u, v, rfl, rfl, hClosing⟩ := ih hm
      exact ⟨'{' :: u, v, rfl, rfl, .opener hClosing⟩
    · by_cases hc : c = '}'
      · subst hc
        cases k with
        | zero =>
          rw [closerOffset_zero_closer] at h
          exact ⟨[], text, rfl, Except.ok.inj h, .nil⟩
        | succ k =>
          rw [closerOffset_succ_closer] at h
          obtain ⟨m, hm, rfl⟩ := Outcome.map_eq_ok h
          obtain ⟨u, v, rfl, rfl, hClosing⟩ := ih hm
          exact ⟨'}' :: u, v, rfl, rfl, .closer hClosing⟩
      · rw [closerOffset_cons_other ho hc] at h
        obtain ⟨m, hm, rfl⟩ := Outcome.map_eq_ok h
        obtain ⟨u, v, rfl, rfl, hClosing⟩ := ih hm
        exact ⟨c :: u, v, rfl, rfl, by rwa [braces_cons_other ho hc]⟩

theorem closerOffset_of_closing (v : Text) (h : Closing k (braces u)) :
    closerOffset k (u ++ '}' :: v) = .ok u.length := by
  induction u generalizing k with
  | nil =>
    cases h
    exact closerOffset_zero_closer
  | cons c u ih =>
    rw [List.cons_append]
    by_cases ho : c = '{'
    · subst ho
      rw [closerOffset_cons_opener, ih (closing_cons_opener.1 h)]
      rfl
    · by_cases hc : c = '}'
      · subst hc
        cases h with
        | closer h =>
          rw [closerOffset_succ_closer, ih h]
          rfl
      · rw [braces_cons_other ho hc] at h
        rw [closerOffset_cons_other ho hc, ih h]
        rfl

/-! ### Missing braces -/

theorem map_eq_error {e : Except Nat Nat} {f : Nat → Nat} :
    e.map f = .error d ↔ e = .error d := by
  cases e <;> simp [Except.map]

theorem count_of_closerOffset (h : closerOffset k text = .error d) :
    d + text.count '}' = k + 1 + text.count '{' ∧ 1 ≤ d := by
  induction text generalizing k with
  | nil =>
    obtain rfl : k + 1 = d := by simpa [closerOffset] using h
    simp
  | cons c text ih =>
    by_cases ho : c = '{'
    · subst ho
      rw [closerOffset_cons_opener, map_eq_error] at h
      have := ih h
      simp; omega
    · by_cases hc : c = '}'
      · subst hc
        cases k with
        | zero =>
          rw [closerOffset_zero_closer] at h
          cases h
        | succ k =>
          rw [closerOffset_succ_closer, map_eq_error] at h
          have := ih h
          simp; omega
      · rw [closerOffset_cons_other ho hc, map_eq_error] at h
        rw [List.count_cons_of_ne hc, List.count_cons_of_ne ho]
        exact ih h

/-- After a text in which a block is left open the scan goes on at the depth that it has reached. -/
theorem closerOffset_append_of_error (v : Text) (h : closerOffset k u = .error (d + 1)) :
    closerOffset k (u ++ v) = (closerOffset d v).map (u.length + ·) := by
  have hMap (c : Char) (u : Text) (e : Except Nat Nat) :
      (e.map (u.length + ·)).map (· + 1) = e.map ((c :: u).length + ·) := by
    cases e with
    | error => rfl
    | ok m =>
      simp only [Except.map, List.length_cons, Except.ok.injEq]
      omega
  induction u generalizing k with
  | nil =>
    obtain rfl : k = d := by simpa [closerOffset] using h
    cases hv : closerOffset k v <;> simp [Except.map, hv]
  | cons c u ih =>
    rw [List.cons_append]
    by_cases ho : c = '{'
    · subst ho
      rw [closerOffset_cons_opener, map_eq_error] at h
      rw [closerOffset_cons_opener, ih h, hMap]
    · by_cases hc : c = '}'
      · subst hc
        cases k with
        | zero =>
          rw [closerOffset_zero_closer] at h
          cases h
        | succ k =>
          rw [closerOffset_succ_closer, map_eq_error] at h
          rw [closerOffset_succ_closer, ih h, hMap]
      · rw [closerOffset_cons_other ho hc, map_eq_error] at h
        rw [closerOffset_cons_other ho hc, ih h, hMap]

theorem closerOffset_replicate_of_le (h : n ≤ k) :
    closerOffset k (List.replicate n '}') = .error (k + 1 - n) := by
  induction n generalizing k with
  | zero => rfl
  | succ n ih =>
    obtain ⟨k, rfl⟩ : ∃ j, k = j + 1 := ⟨k - 1, by omega⟩
    rw [List.replicate_succ, closerOffset_succ_closer, ih (by omega)]
    simp only [Except.map, Except.error.injEq]
    omega

theorem closerOffset_replicate (k : Nat) : closerOffset k (List.replicate (k + 1) '}') = .ok k := by
  induction k with
  | zero => exact closerOffset_zero_closer
  | succ k ih =>
    rw [List.replicate_succ, closerOffset_succ_closer, ih]
    rfl

/-! ### The search -/

theorem refuses_iff : Refuses text start ↔ ∀ i, findMatchingClose text start ≠ .ok i := by
  constructor
  · rintro ⟨e, he, -⟩ i hi
    rw [he] at hi
    cases hi
  · intro h
    cases hFind : findMatchingClose text start with
    | ok i => exact absurd hFind (h i)
    | error e => exact ⟨e, hFind, fault_of_findMatchingClose hFind⟩

theorem ClosesAt.drop_eq {i : Nat} (h : ClosesAt text start i) :
    text.drop start = (text.take i).drop start ++ '}' :: text.drop (i + 1) := by
  obtain ⟨hi, hChar⟩ := List.getElem?_eq_some_iff.1 h.closer
  have hLe := h.le
  rw [← hChar, List.getElem_cons_drop, ← List.drop_append_of_le_length (by simp; omega),
    List.take_append_drop]

theorem findMatchingClose_eq_ok_iff {i : Int} :
    findMatchingClose text start = .ok i ↔ ∃ n : Nat, i = n ∧ ClosesAt text start n := by
  rw [findMatchingClose_eq_ok]
  constructor
  · rintro ⟨m, hm, rfl⟩
    obtain ⟨u, v, hText, rfl, hClosing⟩ := closing_of_closerOffset hm
    have hBody : (text.take (start + u.length)).drop start = u := by
      rw [List.drop_take, Nat.add_sub_cancel_left, hText, List.take_left]
    refine ⟨start + u.length, by omega, Nat.le_add_right _ _, ?_, ?_⟩
    · rw [← List.getElem?_drop, hText]
      simp
    · rw [hBody]
      exact closing_zero_iff.1 hClosing
  · rintro ⟨n, rfl, h⟩
    have hLe := h.le
    have hn : n < text.length := (List.getElem?_eq_some_iff.1 h.closer).1
    have hLength : ((text.take n).drop start).length = n - start := by simp; omega
    refine ⟨n - start, ?_, by omega⟩
    rw [h.drop_eq, closerOffset_of_closing _ (closing_zero_iff.2 h.balanced), hLength]

theorem ClosesAt.lt_of_opener {m i : Nat} (hm : ClosesAt text m i) (hn : ClosesAt text (n + 1) i)
    (hOpens : text[n]? = some '{') : n < m := by
  refine Nat.lt_of_not_le fun hLe => ?_
  have hlt : n < i := hn.le
  have hSplit : (text.take i).drop m =
      ((text.take i).drop m).take (n - m) ++ '{' :: (text.take i).drop (n + 1) := by
    have hAt : (text.take i).drop n = '{' :: (text.take i).drop (n + 1) := by
      obtain ⟨hLength, hChar⟩ := List.getElem?_eq_some_iff.1 hOpens
      rw [List.drop_eq_getElem_cons (by simp; omega), List.getElem_take, hChar]
    have hRest : ((text.take i).drop m).drop (n - m) = (text.take i).drop n := by
      rw [List.drop_drop, Nat.add_sub_cancel' hLe]
    rw [← hAt, ← hRest, List.take_append_drop]
  have hBraces : braces ((text.take i).drop m) = braces (((text.take i).drop m).take (n - m)) ++
      '{' :: braces ((text.take i).drop (n + 1)) := by
    rw [← braces_cons_opener, ← braces_append, ← hSplit]
  -- all that the inner block opens is closed in it, so the outer one is left with one brace open
  have hOuter := (closing_zero_iff.2 hm.balanced).count_eq
  have hInner := (closing_zero_iff.2 hn.balanced).count_eq
  have hPrefix := (closing_zero_iff.2 hm.balanced).count_prefix_le ⟨_, hBraces.symm⟩
  rw [hBraces, List.count_append, List.count_append, List.count_cons_of_ne (by decide),
    List.count_cons_self] at hOuter
  omega

theorem lacks_of_unclosed {source : Text}
    (h : findMatchingClose text start = .error ⟨.unclosed d, source⟩) : Lacks text start d := by
  rw [findMatchingClose_natCast] at h
  split at h
  · cases h
  · next hCloser =>
    rw [Decidable.not_not] at hCloser
    split at h
    · cases h
    · next missing hMissing =>
      obtain rfl : missing = d := by simpa using congrArg MalformedBlock.fault (Except.error.inj h)
      obtain ⟨hCount, hPos⟩ := count_of_closerOffset hMissing
      obtain ⟨depth, rfl⟩ : ∃ depth, missing = depth + 1 := ⟨missing - 1, by omega⟩
      have hStart : start ≤ text.length := by
        refine Nat.le_of_not_lt fun hOut => ?_
        rw [List.drop_of_length_le (Nat.le_of_lt hOut)] at hCloser
        cases hCloser
      -- with more braces behind the text, the scan goes on where it has stopped
      have hLonger (j : Nat) : closerOffset 0 ((text ++ List.replicate j '}').drop start) =
          (closerOffset depth (List.replicate j '}')).map ((text.drop start).length + ·) := by
        rw [List.drop_append_of_le_length hStart, closerOffset_append_of_error _ hMissing]
      refine ⟨by omega, hPos, fun j hj => refuses_iff.2 fun i hi => ?_, text.length + depth,
        ?_, ?_⟩
      · obtain ⟨m, hm, -⟩ := findMatchingClose_eq_ok.1 hi
        rw [hLonger, closerOffset_replicate_of_le (by omega)] at hm
        cases hm
      · simp [Nat.add_assoc]
      · refine findMatchingClose_eq_ok.2 ⟨(text.drop start).length + depth, ?_, ?_⟩
        · rw [hLonger, closerOffset_replicate]
          rfl
        · rw [List.length_drop]
          omega

/-- A search finds exactly the closing brace of a balanced body, of which there is at most one. Where
there is none it fails, and what it reports as missing is what the text lacks. -/
theorem findMatchingClose_iff_balanced (text : Text) (start : Nat) :
    (∀ i : Int, findMatchingClose text start = .ok i ↔ ∃ n : Nat, i = n ∧ ClosesAt text start n) ∧
    (∀ m n, ClosesAt text start m → ClosesAt text start n → m = n) ∧
    (Refuses text start ↔ ¬ ∃ n, ClosesAt text start n) ∧
    ∀ missing source, findMatchingClose text start = .error ⟨.unclosed missing, source⟩ →
      Lacks text start missing := by
  refine ⟨fun i => findMatchingClose_eq_ok_iff, fun m n hm hn => ?_, ?_,
    fun _ _ => lacks_of_unclosed⟩
  · have hFirst := findMatchingClose_eq_ok_iff.2 ⟨m, rfl, hm⟩
    have hSecond := findMatchingClose_eq_ok_iff.2 ⟨n, rfl, hn⟩
    exact Int.ofNat_inj.1 (Except.ok.inj (hFirst.symm.trans hSecond))
  · rw [refuses_iff]
    constructor
    · rintro h ⟨n, hn⟩
      exact h n (findMatchingClose_eq_ok_iff.2 ⟨n, rfl, hn⟩)
    · intro h i hi
      obtain ⟨n, -, hn⟩ := findMatchingClose_eq_ok_iff.1 hi
      exact h ⟨n, hn⟩

/-- A block, three that open in it and one that is closed again leave three to close. -/
example : findMatchingClose "a\x7d\x7b \x7bb\x7d \x7b".toList (2 : Nat) =
    .error ⟨.unclosed 3, "\x7b \x7bb\x7d \x7b".toList⟩ := rfl

end RazorVash.Brace
