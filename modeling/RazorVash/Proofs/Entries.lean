import Mathlib.Data.List.Forall2
import Mathlib.Data.List.Induction
import Mathlib.Data.Option.Defs
import RazorVash.Entries

namespace RazorVash.Entries

variable {α β : Type} {entries more : Entries α} {name : Text} {a : α}

theorem names_map (entries : Entries α) (f : α → β) :
    names (entries.map fun entry => (entry.1, f entry.2)) = names entries := by
  simp [names, Function.comp_def]

theorem find?_map (entries : Entries α) (f : α → β) (name : Text) :
    find? name (entries.map fun entry => (entry.1, f entry.2)) = (find? name entries).map f := by
  induction entries with
  | nil => rfl
  | cons entry entries ih =>
    obtain ⟨key, old⟩ := entry
    rw [List.map_cons, find?, find?]
    split
    · rfl
    · exact ih

theorem put_put (entries : Entries α) (name : Text) (a b : α) :
    put name b (put name a entries) = put name b entries := by
  induction entries with
  | nil => simp [put]
  | cons entry entries ih =>
    obtain ⟨key, old⟩ := entry
    by_cases h : key = name
    · simp only [put, if_pos h]
    · simp only [put, if_neg h, ih]

theorem put_map (entries : Entries α) (f : α → β) (name : Text) (a : α) :
    put name (f a) (entries.map fun entry => (entry.1, f entry.2)) =
      (put name a entries).map fun entry => (entry.1, f entry.2) := by
  induction entries with
  | nil => rfl
  | cons entry entries ih =>
    obtain ⟨key, old⟩ := entry
    rw [List.map_cons, put, put]
    split
    · rfl
    · rw [ih, List.map_cons]

theorem rel_find? {R : Text → α → β → Prop} {others : Entries β}
    (h : List.Forall₂ (fun entry other => other.1 = entry.1 ∧ R entry.1 entry.2 other.2) entries others)
    (name : Text) : Option.Rel (R name) (find? name entries) (find? name others) := by
  induction h with
  | nil => exact .none
  | @cons entry other entries others hEntry _ ih =>
    obtain ⟨key, old⟩ := entry
    obtain ⟨key', old'⟩ := other
    obtain ⟨rfl, hRel⟩ := hEntry
    rw [find?, find?]
    split
    · next hKey => exact .some (hKey ▸ hRel)
    · exact ih

theorem put_of_find? (h : find? name entries = some a) : put name a entries = entries := by
  induction entries with
  | nil => cases h
  | cons entry entries ih =>
    obtain ⟨key, old⟩ := entry
    rw [find?] at h
    rw [put]
    split at h
    · next hKey =>
      obtain rfl := Option.some.inj h
      rw [if_pos hKey]
    · next hKey => rw [if_neg hKey, ih h]

theorem put_of_notMem (h : name ∉ names entries) : put name a entries = entries ++ [(name, a)] := by
  induction entries with
  | nil => rfl
  | cons entry entries ih =>
    obtain ⟨key, old⟩ := entry
    simp only [names, List.map_cons, List.mem_cons, not_or] at h
    rw [put, if_neg (Ne.symm h.1), ih h.2, List.cons_append]

theorem putAll_of_nodup (h : (names (entries ++ more)).Nodup) :
    putAll entries more = entries ++ more := by
  induction more generalizing entries with
  | nil => rw [List.append_nil]; rfl
  | cons entry more ih =>
    obtain ⟨name, a⟩ := entry
    have hNew : name ∉ names entries := by
      intro hm
      rw [names, List.map_append, List.nodup_append] at h
      exact h.2.2 name hm name List.mem_cons_self rfl
    have hNext : putAll entries ((name, a) :: more) = putAll (put name a entries) more := rfl
    rw [hNext, put_of_notMem hNew, ih (by simpa using h), List.append_assoc]
    rfl

theorem nodup_names_put (h : (names entries).Nodup) : (names (put name a entries)).Nodup := by
  rw [names_put]
  split
  · exact h
  · next hn =>
    rw [List.nodup_append]
    refine ⟨h, by simp, ?_⟩
    rintro x hx y hy rfl
    exact hn (List.mem_singleton.1 hy ▸ hx)

theorem nodup_names_putAll (h : (names entries).Nodup) : (names (putAll entries more)).Nodup := by
  induction more generalizing entries with
  | nil => exact h
  | cons entry more ih => exact ih (nodup_names_put h)

theorem mem_put {entry : Text × α} (h : entry ∈ put name a entries) :
    entry ∈ entries ∨ entry.2 = a := by
  induction entries with
  | nil =>
    rw [List.mem_singleton.1 h]
    exact .inr rfl
  | cons first entries ih =>
    obtain ⟨key, old⟩ := first
    rw [put] at h
    split at h
    · rcases List.mem_cons.1 h with rfl | h
      · exact .inr rfl
      · exact .inl (List.mem_cons_of_mem _ h)
    · rcases List.mem_cons.1 h with rfl | h
      · exact .inl List.mem_cons_self
      · exact (ih h).imp_left (List.mem_cons_of_mem _)

theorem mem_putAll {entry : Text × α} (h : entry ∈ putAll entries more) :
    entry ∈ entries ∨ ∃ other ∈ more, entry.2 = other.2 := by
  induction more generalizing entries with
  | nil => exact .inl h
  | cons first more ih =>
    rcases ih h with h | ⟨other, ho, he⟩
    · rcases mem_put h with h | h
      · exact .inl h
      · exact .inr ⟨first, List.mem_cons_self, h⟩
    · exact .inr ⟨other, List.mem_cons_of_mem _ ho, he⟩

theorem putAll_concat (entries more : Entries α) (name : Text) (a : α) :
    putAll entries (more ++ [(name, a)]) = put name a (putAll entries more) := by
  rw [putAll, List.foldl_append]
  rfl

theorem find?_putAll (entries more : Entries α) (name : Text) :
    find? name (putAll entries more) = (find? name more.reverse).or (find? name entries) := by
  induction more using List.reverseRecOn with
  | nil => rfl
  | append_singleton more last ih =>
    obtain ⟨key, a⟩ := last
    rw [putAll_concat, find?_put, List.reverse_append, List.reverse_singleton, List.singleton_append,
      find?, ih]
    split <;> rfl

theorem find?_eq_some_iff (h : (names entries).Nodup) :
    find? name entries = some a ↔ (name, a) ∈ entries := by
  induction entries with
  | nil => simp [find?]
  | cons entry entries ih =>
    obtain ⟨key, old⟩ := entry
    obtain ⟨hKey, hRest⟩ := List.nodup_cons.1 h
    rw [find?, List.mem_cons, Prod.mk.injEq]
    split
    · next hName =>
      subst hName
      have hNot : (key, a) ∉ entries := fun hm => hKey (List.mem_map.2 ⟨(key, a), hm, rfl⟩)
      simp [hNot, eq_comm]
    · next hName => rw [ih hRest, or_iff_right fun hSame => hName hSame.1.symm]

theorem find?_eq_some_iff_append : find? name entries = some a ↔
    ∃ before after, entries = before ++ (name, a) :: after ∧ name ∉ names before := by
  induction entries with
  | nil => simp [find?]
  | cons entry entries ih =>
    obtain ⟨key, old⟩ := entry
    rw [find?]
    split
    · next hKey =>
      subst hKey
      constructor
      · rintro ⟨⟩
        exact ⟨[], entries, rfl, List.not_mem_nil⟩
      · rintro ⟨before, after, hSplit, hNew⟩
        rcases List.cons_eq_append_iff.1 hSplit with ⟨rfl, hFirst⟩ | ⟨before, rfl, -⟩
        · cases hFirst
          rfl
        · exact absurd List.mem_cons_self hNew
    · next hKey =>
      rw [ih]
      constructor
      · rintro ⟨before, after, rfl, hNew⟩
        refine ⟨(key, old) :: before, after, rfl, ?_⟩
        rw [names, List.map_cons, List.mem_cons, not_or]
        exact ⟨Ne.symm hKey, hNew⟩
      · rintro ⟨before, after, hSplit, hNew⟩
        rcases List.cons_eq_append_iff.1 hSplit with ⟨rfl, hFirst⟩ | ⟨before, rfl, hRest⟩
        · cases hFirst
          exact absurd rfl hKey
        · exact ⟨before, after, hRest, fun hm => hNew (List.mem_cons_of_mem _ hm)⟩

/-- Read backwards, the entry that is found is the last one of its name. -/
theorem find?_reverse_eq_some_iff : find? name entries.reverse = some a ↔
    ∃ before after, entries = before ++ (name, a) :: after ∧ name ∉ names after := by
  rw [find?_eq_some_iff_append]
  have hNames (others : Entries α) : name ∈ names others.reverse ↔ name ∈ names others := by
    rw [names, names, List.map_reverse, List.mem_reverse]
  constructor
  · rintro ⟨after, before, hSplit, hNew⟩
    refine ⟨before.reverse, after.reverse, ?_, fun hm => hNew ((hNames after).1 hm)⟩
    simpa using List.reverse_eq_iff.1 hSplit
  · rintro ⟨before, after, rfl, hNew⟩
    refine ⟨after.reverse, before.reverse, by simp, fun hm => hNew ((hNames after).1 hm)⟩

theorem find?_reverse (h : (names entries).Nodup) :
    find? name entries.reverse = find? name entries := by
  have hReverse : (names entries.reverse).Nodup := by
    rw [names, List.map_reverse]
    exact List.pairwise_reverse.2 (h.imp Ne.symm)
  refine Option.ext fun a => ?_
  rw [find?_eq_some_iff hReverse, find?_eq_some_iff h, List.mem_reverse]

theorem names_putAll (entries more : Entries α) :
    names (putAll entries more) =
      names entries ++ (names more).eraseDups.filter (· ∉ names entries) := by
  induction more using List.reverseRecOn with
  | nil =>
    rw [names, names, names, List.map_nil, List.eraseDups_nil, List.filter_nil, List.append_nil]
    rfl
  | append_singleton more last ih =>
    obtain ⟨key, a⟩ := last
    have hNames : names (more ++ [(key, a)]) = names more ++ [key] := List.map_append
    rw [putAll_concat, names_put, hNames, List.eraseDups_append, List.filter_append, ih]
    by_cases hOld : key ∈ names entries
    · have hNone : (([key].removeAll (names more)).eraseDups.filter (· ∉ names entries)) = [] := by
        rw [List.filter_eq_nil_iff]
        intro x hx
        have hKey := List.mem_eraseDups.1 hx
        rw [List.removeAll, List.mem_filter, List.mem_singleton] at hKey
        simpa [hKey.1] using hOld
      rw [if_pos (List.mem_append_left _ hOld), hNone, List.append_nil]
    · by_cases hSeen : key ∈ names more
      · have hNone : [key].removeAll (names more) = [] := by simp [List.removeAll, hSeen]
        have hMem : key ∈ names entries ++ (names more).eraseDups.filter (· ∉ names entries) := by
          simp [hSeen, hOld]
        rw [if_pos hMem, hNone, List.eraseDups_nil, List.filter_nil, List.append_nil]
      · have hNew : [key].removeAll (names more) = [key] := by simp [List.removeAll, hSeen]
        have hMem : key ∉ names entries ++ (names more).eraseDups.filter (· ∉ names entries) := by
          simp [hSeen, hOld]
        rw [if_neg hMem, hNew, List.append_assoc]
        simp [List.eraseDups_cons, hOld]

theorem mem_names_putAll : name ∈ names (putAll entries more) ↔
    name ∈ names entries ∨ name ∈ names more := by
  by_cases h : name ∈ names entries <;> simp [names_putAll, h]

end RazorVash.Entries
