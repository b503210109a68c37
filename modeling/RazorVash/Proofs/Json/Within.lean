import Mathlib.Algebra.Group.Nat.Defs
import Mathlib.Data.List.Induction
import RazorVash.Proofs.Entries
import RazorVash.Proofs.Json.Numeral
import RazorVash.Proofs.Outcome

namespace RazorVash.Json

/-- Nested at most so deep, with whole numbers that are not too long and without two members of one
name in any object. -/
inductive Within : Nat → Json → Prop
  | null {depth : Nat} : Within depth .null
  | bool {depth : Nat} (value : Bool) : Within depth (.bool value)
  | whole {depth : Nat} {value : Int} :
    (Text.ofNat value.natAbs).length ≤ mostDigits → Within depth (.whole value)
  | real {depth : Nat} (value : Binary64) : Within depth (.real value)
  | string {depth : Nat} (value : Text) : Within depth (.string value)
  | list {depth : Nat} {items : List Json} :
    (∀ item ∈ items, Within depth item) → Within (depth + 1) (.list items)
  | object {depth : Nat} {members : Members} : members.names.Nodup →
    (∀ member ∈ members, Within depth member.2) → Within (depth + 1) (.object members)

inductive Exact : Json → Prop
  | null : Exact .null
  | bool (value : Bool) : Exact (.bool value)
  | whole (value : Int) : Exact (.whole value)
  | string (value : Text) : Exact (.string value)
  | list {items : List Json} : (∀ item ∈ items, Exact item) → Exact (.list items)
  | object {members : Members} : (∀ member ∈ members, Exact member.2) → Exact (.object members)

variable {depth : Nat} {v : Json} {items : List Json} {members : Members} {text rest start : Text}
  {value : Text → Reading Json} {P : Json → Prop}

theorem allDigits_wholeDigits (text : Text) : AllDigits (wholeDigits text) := by
  rw [wholeDigits.eq_def]
  split
  · exact allDigits_replicate 1
  · exact fun d hd => (List.all_eq_true.1 (List.all_takeWhile) d hd)

theorem natOf_concat (ds : Text) (c : Char) : natOf (ds ++ [c]) = natOf ds * 10 + (c.toNat - 48) := by
  simp [natOf]

theorem natOf_lt {ds : Text} (h : AllDigits ds) : natOf ds < 10 ^ ds.length := by
  induction ds using List.reverseRecOn with
  | nil => decide
  | append_singleton ds c ih =>
    have hLess := ih fun d hd => h d (List.mem_append_left _ hd)
    have hDigit := h c (List.mem_append_right _ (List.mem_singleton_self c))
    simp only [Char.isDigit, Bool.and_eq_true, decide_eq_true_eq] at hDigit
    have hLast : c.toNat ≤ 57 := hDigit.2
    rw [natOf_concat, List.length_append, List.length_singleton, Nat.pow_succ]
    omega

theorem length_ofNat_natOf {ds : Text} (h : AllDigits ds) (hn : ds ≠ []) :
    (Text.ofNat (natOf ds)).length ≤ ds.length :=
  (Nat.length_toDigits_le_iff (by decide) (List.length_pos_iff.2 hn)).2 (natOf_lt h)

theorem within_of_readUnsigned {negative : Bool}
    (h : readUnsigned negative start text = .ok (v, rest)) : Within depth v := by
  unfold readUnsigned at h
  simp only at h
  split at h
  · cases h
  · next hn =>
    split at h
    · obtain ⟨rfl, -⟩ := Prod.mk.inj (Except.ok.inj h)
      exact .real _
    · split at h
      · split at h
        · cases h
        · next hl =>
          obtain ⟨rfl, -⟩ := Prod.mk.inj (Except.ok.inj h)
          apply Within.whole
          have hAbs : (if negative then -(natOf (wholeDigits text) : Int)
              else natOf (wholeDigits text)).natAbs = natOf (wholeDigits text) := by
            split <;> simp
          rw [hAbs]
          exact Nat.le_trans (length_ofNat_natOf (allDigits_wholeDigits text) hn) (Nat.not_lt.1 hl)
      · obtain ⟨rfl, -⟩ := Prod.mk.inj (Except.ok.inj h)
        exact .real _

theorem within_of_readNumber (h : readNumber text = .ok (v, rest)) : Within depth v := by
  rw [readNumber.eq_def] at h
  split at h <;> exact within_of_readUnsigned h

theorem within_of_literal? (h : literal? text = some (v, rest)) : Within depth v := by
  obtain ⟨⟨name, found⟩, hMem, hFound⟩ := List.exists_of_findSome?_eq_some h
  obtain ⟨left, -, hPair⟩ := Option.map_eq_some_iff.1 hFound
  obtain ⟨rfl, -⟩ := Prod.mk.inj hPair
  simp only [literals, List.mem_cons, Prod.mk.injEq, List.not_mem_nil, or_false] at hMem
  rcases hMem with ⟨-, rfl⟩ | ⟨-, rfl⟩ | ⟨-, rfl⟩ | ⟨-, rfl⟩ | ⟨-, rfl⟩ | ⟨-, rfl⟩
  · exact .null
  · exact .bool _
  · exact .bool _
  · exact .real _
  · exact .real _
  · exact .real _

theorem forall_of_readItems (hv : ∀ text v rest, value text = .ok (v, rest) → P v) :
    ∀ {items rest}, readItems value text = .ok (items, rest) → ∀ item ∈ items, P item := by
  fun_induction readItems value text with
  | case1 text e he => exact fun h => by cases h
  | case2 text item rest hItem rest' hEnd =>
    intro items left h
    obtain ⟨rfl, -⟩ := Prod.mk.inj (Except.ok.inj h)
    exact fun other ho => List.mem_singleton.1 ho ▸ hv _ _ _ hItem
  | case3 text item rest hItem rest' hComma hShorter ih =>
    intro items left h
    obtain ⟨⟨more, left'⟩, hMore, hPair⟩ := Outcome.map_eq_ok h
    obtain ⟨rfl, -⟩ := Prod.mk.inj hPair
    intro other ho
    rcases List.mem_cons.1 ho with rfl | ho
    · exact hv _ _ _ hItem
    · exact ih hMore other ho
  | case4 => exact fun h => by cases h
  | case5 => exact fun h => by cases h

/-- One member, and either the end of the object or the members after it. -/
theorem exists_of_readMembers (h : readMembers value text = .ok (members, rest)) :
    ∃ name item source left, value source = .ok (item, left) ∧
      (members = [(name, item)] ∨ ∃ more later, later.length < text.length ∧
        readMembers value later = .ok (more, rest) ∧ members = (name, item) :: more) := by
  rw [readMembers.eq_def] at h
  split at h
  · split at h
    · cases h
    · next name left _ =>
      split at h
      · split at h
        · cases h
        · next item left' hItem =>
          split at h
          · obtain ⟨rfl, -⟩ := Prod.mk.inj (Except.ok.inj h)
            exact ⟨name, item, _, left', hItem, .inl rfl⟩
          · split at h
            · next later _ hShorter =>
              obtain ⟨⟨more, _⟩, hMore, hPair⟩ := Outcome.map_eq_ok h
              obtain ⟨rfl, rfl⟩ := Prod.mk.inj hPair
              refine ⟨name, item, _, left', hItem, .inr ⟨more, skipSpace later, ?_, hMore, rfl⟩⟩
              exact Nat.lt_succ_of_lt hShorter
            · cases h
          · cases h
      · cases h
  · cases h

theorem forall_of_readMembers (hv : ∀ text v rest, value text = .ok (v, rest) → P v)
    (h : readMembers value text = .ok (members, rest)) : ∀ member ∈ members, P member.2 := by
  induction hLength : text.length using Nat.strongRecOn generalizing text members with
  | ind n ih =>
    obtain ⟨name, item, source, left, hItem, hMembers⟩ := exists_of_readMembers h
    have hFirst := hv _ _ _ hItem
    rcases hMembers with rfl | ⟨more, later, hShorter, hMore, rfl⟩
    · simpa using hFirst
    · intro member hm
      rcases List.mem_cons.1 hm with rfl | hm
      · exact hFirst
      · exact ih later.length (hLength ▸ hShorter) hMore rfl member hm

theorem within_of_readValue (h : readValue depth text = .ok (v, rest)) : Within depth v := by
  induction depth using Nat.strongRecOn generalizing text v rest with
  | ind depth ih =>
    rw [readValue.eq_def] at h
    simp only at h
    -- the cases of the reader in their order: strings, lists, objects, and what is left
    split at h
    · obtain ⟨⟨s, _⟩, -, hPair⟩ := Outcome.map_eq_ok h
      obtain ⟨rfl, -⟩ := Prod.mk.inj hPair
      exact .string s
    · split at h
      · cases h
      · split at h
        · obtain ⟨rfl, -⟩ := Prod.mk.inj (Except.ok.inj h)
          exact .list (by simp)
        · obtain ⟨⟨items, _⟩, hItems, hPair⟩ := Outcome.map_eq_ok h
          obtain ⟨rfl, -⟩ := Prod.mk.inj hPair
          exact .list (forall_of_readItems (fun _ _ _ hv => ih _ (Nat.lt_succ_self _) hv) hItems)
    · split at h
      · cases h
      · split at h
        · obtain ⟨rfl, -⟩ := Prod.mk.inj (Except.ok.inj h)
          exact .object List.nodup_nil (by simp)
        · obtain ⟨⟨members, _⟩, hMembers, hPair⟩ := Outcome.map_eq_ok h
          obtain ⟨rfl, -⟩ := Prod.mk.inj hPair
          refine .object (Entries.nodup_names_putAll List.nodup_nil) fun member hm => ?_
          rcases Entries.mem_putAll hm with hm | ⟨other, ho, he⟩
          · cases hm
          · rw [he]
            exact forall_of_readMembers (fun _ _ _ hv => ih _ (Nat.lt_succ_self _) hv)
              hMembers other ho
    · split at h
      · next hLiteral =>
        obtain ⟨rfl, -⟩ := Prod.mk.inj (Except.ok.inj h)
        exact within_of_literal? hLiteral
      · exact within_of_readNumber h

theorem within_of_read (h : read text = .ok v) : Within deepest v := by
  rw [read.eq_def] at h
  split at h
  · cases h
  · split at h
    · cases h
    · next hValue =>
      split at h
      · obtain rfl := Except.ok.inj h
        exact within_of_readValue hValue
      · cases h

end RazorVash.Json
