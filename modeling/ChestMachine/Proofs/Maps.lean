import ChestMachine.ItemMap

/-!
Entries of maps. Main statements: an inserted value is found again; inserting a new key
puts its entry last, and erasing it once more leaves the map as it was; erasing a key
that is there does not; and what is done under a key is neither seen nor felt under
another one.
-/
namespace ChestMachine
namespace ItemMap

variable {β : Type} {map : ItemMap β} {key other : Item}

theorem eq_of_entries {map map' : ItemMap β} (h : map.entries = map'.entries) : map = map' := by
  obtain ⟨entries, _⟩ := map
  cases h
  rfl

theorem entries_erase (map : ItemMap β) (key : Item) :
    (map.erase key).entries = map.entries.filter fun entry => !(entry.1 == key) := rfl

theorem contains_eq_false (h : map.find? key = none) : map.contains key = false := by
  rw [contains_eq_isSome_find?, h]
  rfl

theorem contains_eq_true {value : β} (h : map.find? key = some value) :
    map.contains key = true := by
  rw [contains_eq_isSome_find?, h]
  rfl

/-- A key that is not found is unlike all keys of the map. -/
theorem beq_of_find?_eq_none (h : map.find? key = none) :
    ∀ entry ∈ map.entries, (entry.1 == key) = false := by
  intro entry hentry
  have hnone := contains_eq_false h
  rw [contains, List.any_eq_false] at hnone
  exact Bool.eq_false_iff.2 (hnone entry hentry)

theorem entries_insert (h : map.find? key = none) (value : β) :
    (map.insert key value).entries = map.entries ++ [(key, value)] := by
  rw [insert, dif_neg (Bool.eq_false_iff.1 (contains_eq_false h))]

theorem entries_insert_of_contains (h : map.contains key) (value : β) :
    (map.insert key value).entries =
      map.entries.map fun entry => if entry.1 == key then (entry.1, value) else entry := by
  rw [insert, dif_pos h]
  rfl

theorem find?_replace_self (h : map.contains key) (value : β) :
    (map.replace key value).find? key = some value := by
  rw [contains_eq_isSome_find?, find?, Option.isSome_map] at h
  obtain ⟨entry, hentry⟩ := Option.isSome_iff_exists.1 h
  have hsame := List.find?_some hentry
  have hkeys : (fun entry : Item × β =>
      (if entry.1 == key then (entry.1, value) else entry).1 == key) = (·.1 == key) := by
    funext other
    split <;> rfl
  simp only [find?, replace, List.find?_map, Function.comp_def, hkeys, hentry, Option.map_some,
    hsame, if_true]

theorem find?_insert_self (map : ItemMap β) (key : Item) (value : β) :
    (map.insert key value).find? key = some value := by
  by_cases h : map.contains key
  · rw [insert, dif_pos h]
    exact find?_replace_self h value
  · have hnone : map.entries.find? (·.1 == key) = none := by
      rw [List.find?_eq_none]
      rw [contains, Bool.not_eq_true, List.any_eq_false] at h
      exact h
    rw [insert, dif_neg h]
    simp only [find?, List.find?_append, hnone, Option.none_or, List.find?_cons, BEq.rfl,
      Option.map_some]

/-- How a key stacks does not matter to what is found under it. -/
theorem find?_congr (h : key == other) : map.find? key = map.find? other := by
  have hkeys : (fun entry : Item × β => entry.1 == key) = (·.1 == other) := by
    funext entry
    exact BEq.congr_right h
  rw [find?, find?, hkeys]

theorem erase_congr (h : key == other) : map.erase key = map.erase other := by
  apply eq_of_entries
  have hkeys : (fun entry : Item × β => !(entry.1 == key)) = fun entry => !(entry.1 == other) := by
    funext entry
    rw [BEq.congr_right h]
  rw [entries_erase, entries_erase, hkeys]

theorem erase_of_find?_eq_none (h : map.find? key = none) : map.erase key = map := by
  apply eq_of_entries
  rw [entries_erase, List.filter_eq_self]
  intro entry hentry
  rw [beq_of_find?_eq_none h entry hentry]
  rfl

theorem find?_erase_self (map : ItemMap β) (key : Item) : (map.erase key).find? key = none := by
  have hnone : (map.erase key).entries.find? (·.1 == key) = none := by
    rw [List.find?_eq_none]
    intro entry hentry
    simpa using (List.mem_filter.1 hentry).2
  rw [find?, hnone]
  rfl

theorem find?_erase_of_ne (h : (key == other) = false) :
    (map.erase key).find? other = map.find? other := by
  have hkeys : (fun entry : Item × β => decide (!(entry.1 == key) ∧ entry.1 == other)) =
      (·.1 == other) := by
    funext entry
    by_cases hother : entry.1 == other
    · have hkey : (entry.1 == key) = false := by rw [BEq.congr_left hother, BEq.comm, h]
      simp [hkey, hother]
    · simp [hother]
  rw [find?, find?, entries_erase, List.find?_filter, hkeys]

/-- Erasing a key leaves nothing of what was inserted under it. -/
theorem erase_insert_self (map : ItemMap β) (key : Item) (value : β) :
    (map.insert key value).erase key = map.erase key := by
  apply eq_of_entries
  rw [entries_erase, entries_erase]
  cases hfind : map.find? key with
  | none =>
      rw [entries_insert hfind, List.filter_append]
      simp
  | some found =>
      have hthere := contains_eq_true hfind
      have hkeys : ((fun entry : Item × β => !(entry.1 == key)) ∘
          fun entry => if entry.1 == key then (entry.1, value) else entry) =
          fun entry => !(entry.1 == key) := by
        funext entry
        simp only [Function.comp_apply]
        split <;> rfl
      have hothers : ∀ entry ∈ map.entries.filter fun entry => !(entry.1 == key),
          (if entry.1 == key then (entry.1, value) else entry) = entry := by
        intro entry hentry
        have hkey : ¬ entry.1 == key := by simpa using (List.mem_filter.1 hentry).2
        exact if_neg hkey
      rw [entries_insert_of_contains hthere, List.filter_map, hkeys, List.map_congr_left hothers,
        List.map_id']

/-- Erasing takes back what inserting a new key has done. -/
theorem erase_insert (h : map.find? key = none) (value : β) :
    (map.insert key value).erase key = map := by
  rw [erase_insert_self, erase_of_find?_eq_none h]

theorem find?_insert_of_ne (h : (key == other) = false) (value : β) :
    (map.insert key value).find? other = map.find? other := by
  rw [← find?_erase_of_ne h, erase_insert_self, find?_erase_of_ne h]

/-- A key that is there keeps its place, and a new one comes last. -/
theorem keys_insert (map : ItemMap β) (key : Item) (value : β) :
    (map.insert key value).keys = if map.contains key then map.keys else map.keys ++ [key] := by
  rw [keys]
  cases hfind : map.find? key with
  | none =>
      rw [entries_insert hfind, contains_eq_false hfind, List.map_append]
      rfl
  | some found =>
      have hthere := contains_eq_true hfind
      have hkeys : ((·.1) ∘ fun entry : Item × β =>
          if entry.1 == key then (entry.1, value) else entry) = (·.1) := by
        funext entry
        simp only [Function.comp_apply]
        split <;> rfl
      rw [entries_insert_of_contains hthere, if_pos hthere, List.map_map, hkeys]
      rfl

/-- An erased entry is gone, and all others stay in their order. -/
theorem entries_erase_of_find? {value : β} (h : map.find? key = some value) :
    ∃ front other behind, other == key ∧ map.entries = front ++ (other, value) :: behind ∧
      (map.erase key).entries = front ++ behind := by
  obtain ⟨⟨other, found⟩, hfound, rfl⟩ := Option.map_eq_some_iff.1 h
  obtain ⟨hsame, front, behind, hentries, hfront⟩ := List.find?_eq_some_iff_append.1 hfound
  have hdistinct := map.distinct
  rw [hentries, List.map_append, List.pairwise_append, List.map_cons, List.pairwise_cons]
    at hdistinct
  have hbehind : ∀ entry ∈ behind, !(entry.1 == key) := by
    intro entry hentry
    have hother := hdistinct.2.1.1 entry.1 (List.mem_map_of_mem hentry)
    rw [BEq.congr_left hsame, BEq.comm] at hother
    rw [hother]
    rfl
  refine ⟨front, other, behind, hsame, hentries, ?_⟩
  rw [entries_erase, hentries, List.filter_append, List.filter_cons, hsame,
    List.filter_eq_self.2 hfront, List.filter_eq_self.2 hbehind]
  rfl

/-- Puts a value under the key, or nothing. -/
def assign (map : ItemMap β) (key : Item) : Option β → ItemMap β
  | none => map.erase key
  | some value => map.insert key value

theorem find?_assign_self (map : ItemMap β) (key : Item) (value? : Option β) :
    (map.assign key value?).find? key = value? := by
  cases value? with
  | none => exact find?_erase_self map key
  | some value => exact find?_insert_self map key value

theorem find?_assign_of_ne (h : (key == other) = false) (value? : Option β) :
    (map.assign key value?).find? other = map.find? other := by
  cases value? with
  | none => exact find?_erase_of_ne h
  | some value => exact find?_insert_of_ne h value

theorem erase_assign (map : ItemMap β) (key : Item) (value? : Option β) :
    (map.assign key value?).erase key = map.erase key := by
  cases value? with
  | none => exact erase_of_find?_eq_none (find?_erase_self map key)
  | some value => exact erase_insert_self map key value

theorem erase_ne_self (h : (map.find? key).isSome) : map.erase key ≠ map := by
  intro heq
  rw [← contains_eq_isSome_find?, contains, List.any_eq_true] at h
  obtain ⟨entry, hentry, hkey⟩ := h
  have hlt : (map.erase key).entries.length < map.entries.length :=
    List.length_filter_lt_length_iff_exists.2 ⟨entry, hentry, by simp [hkey]⟩
  rw [heq] at hlt
  exact Nat.lt_irrefl _ hlt

end ItemMap
end ChestMachine
