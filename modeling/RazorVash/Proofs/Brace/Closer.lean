import RazorVash.Block.Brace
import RazorVash.Proofs.Outcome
import RazorVash.Proofs.Text.Substitution

namespace RazorVash

namespace Text

theorem place_natCast (text : Text) (n : Nat) : text.place n = min n text.length := by
  rw [place, if_neg (by omega)]
  rfl

theorem sliceFrom_natCast (text : Text) (n : Nat) : text.sliceFrom n = text.drop n := by
  rw [sliceFrom, place_natCast]
  rcases Nat.le_total n text.length with h | h
  · rw [Nat.min_eq_left h]
  · rw [Nat.min_eq_right h, List.drop_length, List.drop_of_length_le h]

theorem slice_natCast (text : Text) (m n : Nat) : text.slice m n = (text.take n).drop m := by
  rw [slice, place_natCast, place_natCast, ← List.take_eq_take_min]
  rcases Nat.le_total m text.length with h | h
  · rw [Nat.min_eq_left h]
  · have hTake := List.length_take_le' n text
    rw [Nat.min_eq_right h, List.drop_of_length_le hTake, List.drop_of_length_le (Nat.le_trans hTake h)]

theorem slice_zero_natCast (text : Text) (n : Nat) : text.slice 0 n = text.take n :=
  slice_natCast text 0 n

end Text

namespace Brace

variable {text u v : Text} {k n : Nat}

theorem closerOffset_cons_other {c : Char} (ho : c ≠ '{') (hc : c ≠ '}') :
    closerOffset k (c :: text) = (closerOffset k text).map (· + 1) := by
  rw [closerOffset.eq_def]
  exact (if_neg ho).trans (if_neg hc)

theorem closerOffset_cons_opener :
    closerOffset k ('{' :: text) = (closerOffset (k + 1) text).map (· + 1) := by
  rw [closerOffset.eq_def]
  rfl

theorem closerOffset_zero_closer : closerOffset 0 ('}' :: text) = .ok 0 := by
  rw [closerOffset, if_neg (by decide), if_pos rfl]

theorem closerOffset_succ_closer :
    closerOffset (k + 1) ('}' :: text) = (closerOffset k text).map (· + 1) := by
  rw [closerOffset, if_neg (by decide), if_pos rfl]

theorem closerOffset_append (ho : '{' ∉ u) (hc : '}' ∉ u) (h : closerOffset k text = .ok n) :
    closerOffset k (u ++ text) = .ok (u.length + n) := by
  induction u with
  | nil => simpa using h
  | cons c u ih =>
    rw [List.mem_cons, not_or] at ho hc
    rw [List.cons_append, closerOffset_cons_other (Ne.symm ho.1) (Ne.symm hc.1), ih ho.2 hc.2]
    simp only [Except.map, List.length_cons, Except.ok.injEq]
    omega

theorem exists_of_closerOffset (h : closerOffset k text = .ok n) :
    ∃ u v, text = u ++ '}' :: v ∧ u.length = n ∧
      ∀ w, closerOffset k (u ++ '}' :: w) = .ok n := by
  induction text generalizing k n with
  | nil => cases h
  | cons c text ih =>
    by_cases ho : c = '{'
    · subst ho
      rw [closerOffset_cons_opener] at h
      obtain ⟨m, hm, rfl⟩ := Outcome.map_eq_ok h
      obtain ⟨u, v, rfl, rfl, hw⟩ := ih hm
      refine ⟨'{' :: u, v, rfl, rfl, fun w => ?_⟩
      rw [List.cons_append, closerOffset_cons_opener, hw]
      rfl
    · by_cases hc : c = '}'
      · subst hc
        cases k with
        | zero =>
          rw [closerOffset_zero_closer] at h
          obtain rfl := Except.ok.inj h
          exact ⟨[], text, rfl, rfl, fun w => closerOffset_zero_closer⟩
        | succ k =>
          rw [closerOffset_succ_closer] at h
          obtain ⟨m, hm, rfl⟩ := Outcome.map_eq_ok h
          obtain ⟨u, v, rfl, rfl, hw⟩ := ih hm
          refine ⟨'}' :: u, v, rfl, rfl, fun w => ?_⟩
          rw [List.cons_append, closerOffset_succ_closer, hw]
          rfl
      · rw [closerOffset_cons_other ho hc] at h
        obtain ⟨m, hm, rfl⟩ := Outcome.map_eq_ok h
        obtain ⟨u, v, rfl, rfl, hw⟩ := ih hm
        refine ⟨c :: u, v, rfl, rfl, fun w => ?_⟩
        rw [List.cons_append, closerOffset_cons_other ho hc, hw]
        rfl

/-- A search from some index on scans the text from there, once there is a closing brace at all. -/
theorem findMatchingClose_natCast (text : Text) (n : Nat) :
    findMatchingClose text n =
      if '}' ∉ text.drop n then .error ⟨.noCloser, text.drop n⟩
      else
        match closerOffset 0 (text.drop n) with
        | .ok m => .ok (n + m)
        | .error missing => .error ⟨.unclosed missing, text.drop n⟩ := by
  have hLow : ¬ (n : Int) < -text.length := by omega
  have hSign : ¬ (n : Int) < 0 := by omega
  unfold findMatchingClose
  rcases hClose : closerOffset 0 (text.drop n) with _ | _ <;>
    simp only [Text.sliceFrom_natCast, if_neg hLow, if_neg hSign, hClose]

theorem findMatchingClose_eq_ok {i : Int} :
    findMatchingClose text n = .ok i ↔ ∃ m, closerOffset 0 (text.drop n) = .ok m ∧ i = n + m := by
  rw [findMatchingClose_natCast]
  by_cases hb : '}' ∉ text.drop n
  · rw [if_pos hb]
    constructor
    · intro h
      cases h
    · rintro ⟨m, hm, -⟩
      obtain ⟨u, v, hu, -, -⟩ := exists_of_closerOffset hm
      exact absurd (by simp [hu]) hb
  · rw [if_neg hb]
    cases hm : closerOffset 0 (text.drop n) with
    | error e => simp
    | ok m => simp [eq_comm]

/-- A search that fails reports the text from where it starts, as if nothing came before it. -/
theorem findMatchingClose_eq_error {e : MalformedBlock} :
    findMatchingClose text n = .error e ↔ findMatchingClose (text.drop n) (0 : Nat) = .error e := by
  rw [findMatchingClose_natCast, findMatchingClose_natCast, List.drop_zero]
  split
  · rfl
  · cases closerOffset 0 (text.drop n) <;> simp

theorem fault_of_findMatchingClose {e : MalformedBlock}
    (h : findMatchingClose text n = .error e) : e.fault ≠ .startOutside := by
  rw [findMatchingClose_natCast] at h
  split at h
  · exact (Except.error.inj h) ▸ BlockFault.noConfusion
  · split at h
    · cases h
    · exact (Except.error.inj h) ▸ BlockFault.noConfusion

theorem findMatchingClose_append_closer (h : closerOffset 0 (u ++ '}' :: v) = .ok u.length) :
    findMatchingClose (u ++ '}' :: v) 0 = .ok u.length := by
  exact findMatchingClose_eq_ok.2 ⟨u.length, h, by simp⟩

/-- The block is cut out, every closing brace in it replaced, and all placeholders but the last
become closing braces again. -/
theorem markMatchingClose_natCast (placeholder : Text) (hText : text.drop n = u ++ '}' :: v)
    (h : closerOffset 0 (u ++ '}' :: v) = .ok u.length) :
    let block := Text.replaceAllButLast placeholder ['}']
      (Text.replaceAll ['}'] placeholder (u ++ ['}']))
    markMatchingClose text n placeholder =
      .ok (text.take n ++ block ++ v, n + block.length - placeholder.length) := by
  intro block
  obtain ⟨u', v', he, hl, hw⟩ := exists_of_closerOffset h
  obtain ⟨rfl, -⟩ := List.append_inj he hl.symm
  have hFind : findMatchingClose text n = .ok ((n + u.length : Nat) : Int) :=
    findMatchingClose_eq_ok.2 ⟨u.length, hText ▸ h, by simp⟩
  have hEnd (k : Nat) : (k : Int) + 1 = (k + 1 : Nat) := rfl
  have hBlock : text.slice n ((n + u.length + 1 : Nat) : Int) = u ++ ['}'] := by
    rw [Text.slice_natCast, List.drop_take, hText, Nat.add_assoc, Nat.add_sub_cancel_left,
      List.append_cons, List.take_left' (by simp)]
  have hRest : text.sliceFrom ((n + u.length + 1 : Nat) : Int) = v := by
    rw [Text.sliceFrom_natCast, Nat.add_assoc, ← List.drop_drop, hText, List.append_cons,
      List.drop_left' (by simp)]
  have hReplaced : replaceClosers (u ++ ['}']) placeholder =
      .ok (Text.replaceAll ['}'] placeholder (u ++ ['}'])) := by
    rw [replaceClosers, findMatchingClose_append_closer (hw [])]
    simp only [bind, Except.bind, pure, Except.pure, hEnd, Text.slice_zero_natCast,
      Text.sliceFrom_natCast]
    rw [List.take_of_length_le (by simp), List.drop_of_length_le (by simp), List.append_nil]
  unfold markMatchingClose
  rw [hFind]
  simp only [bind, Except.bind, pure, Except.pure, hEnd, hBlock, hReplaced, hRest,
    Text.slice_zero_natCast]
  rfl

theorem markMatchingClose_zero (placeholder : Text)
    (h : closerOffset 0 (u ++ '}' :: v) = .ok u.length) :
    ∃ i, markMatchingClose (u ++ '}' :: v) 0 placeholder =
      .ok (Text.replaceAllButLast placeholder ['}']
        (Text.replaceAll ['}'] placeholder (u ++ ['}'])) ++ v, i) :=
  ⟨_, markMatchingClose_natCast placeholder List.drop_zero h⟩

theorem markMatchingClose_of_error {e : MalformedBlock} (h : findMatchingClose text n = .error e)
    (placeholder : Text) : markMatchingClose text n placeholder = .error e := by
  rw [markMatchingClose, h]
  rfl

theorem findMatchingClose_of_error {placeholder : Text} {e : MalformedBlock}
    (h : markMatchingClose text n placeholder = .error e) :
    findMatchingClose text n = .error e := by
  cases hClose : findMatchingClose text n with
  | error e' =>
    rw [markMatchingClose_of_error hClose] at h
    rw [Except.error.inj h]
  | ok close =>
    obtain ⟨m, hm, -⟩ := findMatchingClose_eq_ok.1 hClose
    obtain ⟨u, v, hText, rfl, hAny⟩ := exists_of_closerOffset hm
    have hMarked := markMatchingClose_natCast placeholder hText (hAny v)
    dsimp only at hMarked
    rw [hMarked] at h
    cases h

/-- What stands in front of a block has no part in marking its end. -/
theorem markMatchingClose_append_left (u text placeholder : Text) :
    markMatchingClose (u ++ text) u.length placeholder =
      (markMatchingClose text 0 placeholder).map fun (marked, i) => (u ++ marked, u.length + i) := by
  have hZero : ((0 : Nat) : Int) = 0 := rfl
  have hDrop : (u ++ text).drop u.length = text := List.drop_left
  cases hClose : findMatchingClose (u ++ text) u.length with
  | error e =>
    have hBody := findMatchingClose_eq_error.1 hClose
    rw [hDrop] at hBody
    have hPart := markMatchingClose_of_error hBody placeholder
    rw [hZero] at hPart
    rw [markMatchingClose_of_error hClose, hPart]
    rfl
  | ok close =>
    obtain ⟨m, hm, -⟩ := findMatchingClose_eq_ok.1 hClose
    obtain ⟨w, v, hText, rfl, hAny⟩ := exists_of_closerOffset hm
    have hBody : text.drop 0 = w ++ '}' :: v := hDrop.symm.trans hText
    have hWhole := markMatchingClose_natCast placeholder hText (hAny v)
    have hPart := markMatchingClose_natCast placeholder hBody (hAny v)
    dsimp only at hWhole hPart
    rw [hZero] at hPart
    rw [hWhole, hPart, List.take_left]
    simp [Except.map, Int.add_sub_assoc]

end Brace

end RazorVash
