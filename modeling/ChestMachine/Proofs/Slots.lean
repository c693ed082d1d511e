import ChestMachine.Inventory.Units

/-!
Which slot an operation changes. Main statements: adding changes the first slot
that accepts the unit, and pulling the first slot whose unit is wanted, while all
other slots stay as they are; and pulling finds nothing only when no unit is wanted.
-/
namespace ChestMachine

theorem word_toNat_ne_zero {n : UInt32} (h : n ≠ 0) : n.toNat ≠ 0 := by
  intro h0
  exact h (UInt32.toNat_inj.1 h0)

theorem word_toNat_sub_one {n : UInt32} (h : n ≠ 0) : (n - 1).toNat = n.toNat - 1 := by
  apply UInt32.toNat_sub_of_le
  rw [UInt32.le_iff_toNat_le]
  exact Nat.one_le_iff_ne_zero.2 (word_toNat_ne_zero h)

namespace Stack

theorem held?_used {item : Item} {n : UInt32} (h : n ≠ 0) : (used item n).held? = some item := by
  simp [held?, h]

/-- An accepting stack has a place left below its limit. -/
theorem count_of_accepts {s : Stack} {item : Item} (h : s.accepts item) :
    s.count.toNat < (s.held?.getD item).limit.toNat := by
  unfold accepts at h
  cases hs : s.held? with
  | none =>
      simp only [hs, decide_eq_true_eq, UInt32.lt_iff_toNat_lt] at h
      rw [(held?_eq_none_iff s).1 hs]
      exact h
  | some held =>
      simp only [hs, isFull, Bool.and_eq_true, Bool.not_eq_true', decide_eq_false_iff_not,
        UInt32.not_le, UInt32.lt_iff_toNat_lt] at h
      exact h.2

theorem toNat_count_add_one {s : Stack} {item : Item} (h : s.accepts item) :
    (s.count + 1).toNat = s.count.toNat + 1 := by
  have hlt := count_of_accepts h
  have hmax := (s.held?.getD item).limit.toNat_lt
  rw [UInt32.toNat_add, UInt32.toNat_one]
  omega

theorem count_add_one_ne_zero {s : Stack} {item : Item} (h : s.accepts item) :
    s.count + 1 ≠ 0 := by
  intro h0
  have := toNat_count_add_one h
  rw [h0] at this
  exact absurd this.symm (Nat.succ_ne_zero _)

/-- A slot with units of the item, or that had some, takes more of them up to the limit. -/
theorem accepts_used {item : Item} {n : UInt32} (h : n < item.limit) :
    (used item n).accepts item := by
  by_cases hn : n = 0
  · subst hn
    exact decide_eq_true h
  · have hfull : (used item n).isFull = false := by
      rw [isFull, held?_used hn]
      exact decide_eq_false (UInt32.not_le.2 h)
    simp [accepts, held?_used hn, hfull]

theorem add?_used {item : Item} {n : UInt32} (h : n < item.limit) :
    (used item n).add? item = some (used item (n + 1)) := by
  have hheld : (used item n).held?.getD item = item := by
    by_cases hn : n = 0
    · rw [hn]
      rfl
    · rw [held?_used hn]
      rfl
  rw [add?_of_accepts (accepts_used h), hheld, count_used]

theorem accepts_used_of_full {item : Item} {n : UInt32} (hn : n ≠ 0) (h : item.limit ≤ n)
    (other : Item) : (used item n).accepts other = false := by
  have hfull : (used item n).isFull = true := by
    rw [isFull, held?_used hn]
    exact decide_eq_true h
  simp [accepts, held?_used hn, hfull]

theorem pull?_eq_some_iff {s t : Stack} {item : Item} :
    s.pull? = some (item, t) ↔ s.held? = some item ∧ t = .used item (s.count - 1) := by
  cases s with
  | fresh => simp [pull?, held?]
  | used held n =>
      by_cases hn : n = 0
      · simp [pull?, held?, hn]
      · simp only [pull?, held?, hn, if_false, Option.some.injEq, Prod.mk.injEq, count_used]
        constructor
        · intro h
          exact ⟨h.1, by rw [← h.1, ← h.2]⟩
        · intro h
          exact ⟨h.1, by rw [h.2, h.1]⟩

theorem pull?_used_succ (item : Item) {n : Nat} (h : n + 1 < UInt32.size) :
    (used item (n + 1).toUInt32).pull? = some (item, .used item n.toUInt32) := by
  have hnext : (n + 1).toUInt32 = n.toUInt32 + 1 := UInt32.ofNat_add n 1
  have hne : (n + 1).toUInt32 ≠ 0 := by
    intro h0
    have := congrArg UInt32.toNat h0
    rw [Nat.toUInt32, UInt32.toNat_ofNat_of_lt' h] at this
    cases this
  rw [pull?, if_neg hne, hnext, UInt32.add_sub_cancel]

theorem count_ne_zero {s : Stack} {item : Item} (h : s.held? = some item) : s.count ≠ 0 := by
  intro h0
  rw [(held?_eq_none_iff s).2 h0] at h
  cases h

theorem used_of_held {s : Stack} {item : Item} (h : s.held? = some item) :
    s = .used item s.count := by
  cases s with
  | fresh => cases h
  | used held n =>
      have hn : n ≠ 0 := count_ne_zero h
      rw [held?_used hn, Option.some.injEq] at h
      rw [h, count_used]

theorem adopted?_of_held {s : Stack} {item : Item} (h : s.held? = some item) :
    s.adopted? = some item := by
  rw [used_of_held h]
  rfl

theorem isVacant_of_held {s : Stack} {item : Item} (h : s.held? = some item) :
    s.isVacant = false :=
  beq_eq_false_iff_ne.2 (count_ne_zero h)

theorem isVacant_of_none {s : Stack} (h : s.held? = none) : s.isVacant = true :=
  beq_iff_eq.2 ((held?_eq_none_iff s).1 h)

end Stack

namespace Inventory

theorem addTo?_split {item : Item} {slots slots' : List Stack}
    (h : addTo? item slots = some slots') :
    ∃ front s t back, slots = front ++ s :: back ∧ slots' = front ++ t :: back ∧
      (∀ r ∈ front, r.accepts item = false) ∧ s.accepts item ∧ s.add? item = some t := by
  induction slots generalizing slots' with
  | nil => cases h
  | cons s rest ih =>
      simp only [addTo?] at h
      split at h
      · rename_i ha
        obtain ⟨t, ht, rfl⟩ := Option.map_eq_some_iff.1 h
        exact ⟨[], s, t, rest, rfl, rfl, List.forall_mem_nil _, ha, ht⟩
      · rename_i ha
        obtain ⟨rest', hr, rfl⟩ := Option.map_eq_some_iff.1 h
        obtain ⟨front, u, t, back, rfl, rfl, hfront, hu, ht⟩ := ih hr
        refine ⟨s :: front, u, t, back, rfl, rfl, ?_, hu, ht⟩
        exact List.forall_mem_cons.2 ⟨Bool.eq_false_iff.2 ha, hfront⟩

theorem pullFrom?_split {wanted : Item → Bool} {item : Item} {slots slots' : List Stack}
    (h : pullFrom? wanted slots = some (item, slots')) :
    ∃ front s t back, slots = front ++ s :: back ∧ slots' = front ++ t :: back ∧
      (∀ r ∈ front, ∀ held, r.held? = some held → wanted held = false) ∧ wanted item ∧
      s.pull? = some (item, t) := by
  induction slots generalizing slots' with
  | nil => cases h
  | cons s rest ih =>
      have later : (∀ held, s.held? = some held → wanted held = false) →
          (pullFrom? wanted rest).map (fun found => (found.1, s :: found.2)) =
            some (item, slots') →
          ∃ front u t back, s :: rest = front ++ u :: back ∧ slots' = front ++ t :: back ∧
            (∀ r ∈ front, ∀ held, r.held? = some held → wanted held = false) ∧ wanted item ∧
            u.pull? = some (item, t) := by
        intro hs hm
        obtain ⟨⟨found, rest'⟩, hr, heq⟩ := Option.map_eq_some_iff.1 hm
        cases heq
        obtain ⟨front, u, t, back, rfl, rfl, hfront, hw, hu⟩ := ih hr
        refine ⟨s :: front, u, t, back, rfl, rfl, ?_, hw, hu⟩
        exact List.forall_mem_cons.2 ⟨hs, hfront⟩
      simp only [pullFrom?] at h
      split at h
      · rename_i found t hp
        split at h
        · rename_i hw
          cases h
          exact ⟨[], s, t, rest, rfl, rfl, List.forall_mem_nil _, hw, hp⟩
        · rename_i hw
          apply later _ h
          intro held hheld
          rw [(Stack.pull?_eq_some_iff.1 hp).1] at hheld
          cases hheld
          exact Bool.eq_false_iff.2 hw
      · rename_i hp
        apply later _ h
        intro held hheld
        rw [(Stack.held?_eq_none_iff s).2 ((Stack.pull?_eq_none_iff s).1 hp)] at hheld
        cases hheld

/-- Only what is there can be pulled. -/
theorem pullWanted?_eq_none {inventory : Inventory} {wanted : Item → Bool}
    (h : ∀ unit ∈ inventory.units, wanted unit = false) : inventory.pullWanted? wanted = none := by
  cases hp : inventory.pullWanted? wanted with
  | none => rfl
  | some found =>
      obtain ⟨⟨item, slots'⟩, hpull, _⟩ := Option.map_eq_some_iff.1 hp
      obtain ⟨front, s, t, back, hslots, _, _, hwanted, hs⟩ := pullFrom?_split hpull
      have hunit : item ∈ inventory.units := by
        rw [units, hslots, List.flatMap_append, List.flatMap_cons, Stack.units_of_pull? hs]
        simp
      rw [h item hunit] at hwanted
      cases hwanted

theorem not_wanted_of_pullFrom? {wanted : Item → Bool} {slots : List Stack}
    (h : pullFrom? wanted slots = none) :
    ∀ unit ∈ slots.flatMap Stack.units, wanted unit = false := by
  induction slots with
  | nil => exact nofun
  | cons s rest ih =>
      simp only [pullFrom?] at h
      have hfirst : ∀ unit ∈ s.units, wanted unit = false := by
        intro unit hunit
        cases hp : s.pull? with
        | none =>
            rw [(Stack.units_eq_nil_iff s).2 ((Stack.pull?_eq_none_iff s).1 hp)] at hunit
            cases hunit
        | some found =>
            rw [Stack.units, Stack.held?_of_pull? hp] at hunit
            rw [List.eq_of_mem_replicate hunit]
            simp only [hp] at h
            split at h
            · cases h
            · rename_i hw
              exact Bool.eq_false_iff.2 hw
      have hrest : pullFrom? wanted rest = none := by
        split at h
        · split at h
          · cases h
          · exact Option.map_eq_none_iff.1 h
        · exact Option.map_eq_none_iff.1 h
      intro unit hunit
      rw [List.flatMap_cons, List.mem_append] at hunit
      exact hunit.elim (hfirst unit) (ih hrest unit)

theorem pullWanted?_eq_none_iff {inventory : Inventory} {wanted : Item → Bool} :
    inventory.pullWanted? wanted = none ↔ ∀ unit ∈ inventory.units, wanted unit = false := by
  constructor
  · intro h
    exact not_wanted_of_pullFrom? (Option.map_eq_none_iff.1 h)
  · exact pullWanted?_eq_none

end Inventory
end ChestMachine
