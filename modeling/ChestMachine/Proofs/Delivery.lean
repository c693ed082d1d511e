import ChestMachine.Proofs.Rules

/-!
What becomes of the units that are offered to an inventory. Main statements:
a delivery accounts for every unit, as arrived or as refused; an unlimited
transfer leaves the target that a delivery of its units leaves; and it is
complete when that delivery refuses nothing. The converse fails, since the last
unit of a slot may be refused and the slot is empty all the same.
-/
namespace ChestMachine
namespace Inventory

/-- The units that a delivery refuses, in the order in which they are offered. -/
def refusals : List Item → Inventory → List Item
  | [], _ => []
  | item :: rest, target =>
      match target.add? item with
      | some target' => refusals rest target'
      | none => item :: refusals rest target

/-- Adds units that all have to fit. -/
def addAll? (target : Inventory) (items : List Item) : Option Inventory :=
  items.foldlM add? target

theorem fill_cons_some {target target' : Inventory} {item : Item} (rest : List Item)
    (h : target.add? item = some target') : target.fill (item :: rest) = target'.fill rest := by
  simp only [fill, deliver, h]

theorem fill_cons_none {target : Inventory} {item : Item} (rest : List Item)
    (h : target.add? item = none) : target.fill (item :: rest) = target.fill rest := by
  simp only [fill, deliver, h]

theorem fill_append (front back : List Item) (target : Inventory) :
    target.fill (front ++ back) = (target.fill front).fill back := by
  induction front generalizing target with
  | nil => rfl
  | cons item rest ih =>
      rw [List.cons_append]
      cases h : target.add? item with
      | some target' => rw [fill_cons_some _ h, fill_cons_some _ h, ih]
      | none => rw [fill_cons_none _ h, fill_cons_none _ h, ih]

theorem withinLimits_fill {inventory : Inventory} (hw : inventory.WithinLimits)
    (items : List Item) : (inventory.fill items).WithinLimits := by
  induction items generalizing inventory with
  | nil => exact hw
  | cons item rest ih =>
      cases h : inventory.add? item with
      | none =>
          rw [fill_cons_none _ h]
          exact ih hw
      | some next =>
          rw [fill_cons_some _ h]
          exact ih (withinLimits_add? hw h)

theorem refusals_append (front back : List Item) (target : Inventory) :
    refusals (front ++ back) target =
      refusals front target ++ refusals back (target.fill front) := by
  induction front generalizing target with
  | nil => rfl
  | cons item rest ih =>
      rw [List.cons_append]
      cases h : target.add? item with
      | some target' =>
          simp only [refusals, h, fill_cons_some _ h]
          exact ih target'
      | none =>
          simp only [refusals, h, fill_cons_none _ h, List.cons_append]
          rw [ih target]

theorem addAll?_cons (target : Inventory) (item : Item) (rest : List Item) :
    target.addAll? (item :: rest) = (target.add? item).bind (·.addAll? rest) := rfl

theorem addAll?_singleton (target : Inventory) (item : Item) :
    target.addAll? [item] = target.add? item := by
  rw [addAll?_cons]
  cases target.add? item <;> rfl

theorem addAll?_append (target : Inventory) (front back : List Item) :
    target.addAll? (front ++ back) = (target.addAll? front).bind (·.addAll? back) :=
  List.foldlM_append

/-- Units all fit exactly when a delivery refuses none of them. -/
theorem addAll?_eq_some_iff {target target' : Inventory} {items : List Item} :
    target.addAll? items = some target' ↔
      refusals items target = [] ∧ target.fill items = target' := by
  induction items generalizing target with
  | nil => simp [addAll?, refusals, fill, deliver]
  | cons item rest ih =>
      rw [addAll?_cons]
      cases h : target.add? item with
      | some next =>
          simp only [refusals, h, fill_cons_some _ h, Option.bind_some]
          exact ih
      | none => simp [refusals, h]

theorem refusals_replicate_of_full {target : Inventory} {item : Item}
    (h : target.add? item = none) (n : Nat) :
    refusals (List.replicate n item) target = List.replicate n item ∧
      target.fill (List.replicate n item) = target := by
  induction n with
  | zero => exact ⟨rfl, rfl⟩
  | succ n ih =>
      rw [List.replicate_succ, fill_cons_none _ h]
      simp only [refusals, h]
      exact ⟨congrArg _ ih.1, ih.2⟩

theorem obeys_addAll? {rule : Item → Bool} {target target' : Inventory} {items : List Item}
    (ht : target.obeys rule) (hi : ∀ item ∈ items, item.obeys rule)
    (h : target.addAll? items = some target') : target'.obeys rule := by
  rw [← (addAll?_eq_some_iff.1 h).2]
  exact obeys_fill ht hi

end Inventory

/-- Pouring stops at the first refusal, a delivery offers the other units as
well. They are equal units, so they are all refused. -/
theorem Stack.pourUnits_none (item : Item) (n : Nat) (target : Inventory) :
    pourUnits item n none target =
      ((Inventory.refusals (List.replicate n item) target).length - 1, none,
        target.fill (List.replicate n item)) := by
  induction n generalizing target with
  | zero => rfl
  | succ n ih =>
      cases h : target.add? item with
      | some target' =>
          rw [List.replicate_succ, Inventory.fill_cons_some _ h]
          simp only [pourUnits, h, Option.map_none, Inventory.refusals]
          exact ih target'
      | none =>
          obtain ⟨hr, hf⟩ := Inventory.refusals_replicate_of_full h (n + 1)
          rw [hr, hf]
          simp [pourUnits, h]

theorem Stack.units_used (item : Item) (n : UInt32) :
    (used item n).units = List.replicate n.toNat item := by
  by_cases hn : n = 0 <;> simp [units, held?, hn]

theorem Stack.pour_none (s : Stack) (target : Inventory) :
    (s.pour none target).quota = none ∧
      (s.pour none target).target = target.fill s.units ∧
      (Inventory.refusals s.units target = [] → (s.pour none target).stack.count = 0) := by
  cases s with
  | fresh => exact ⟨rfl, rfl, fun _ => rfl⟩
  | used item n =>
      rw [units_used]
      refine ⟨?_, ?_, ?_⟩
      · simp only [pour, pourUnits_none]
      · simp only [pour, pourUnits_none]
      · intro hnone
        simp only [pour, pourUnits_none, hnone, count_used]
        rfl

namespace Inventory

theorem pourAll_none (slots : List Stack) (target : Inventory) :
    (pourAll slots none target).2 = target.fill (slots.flatMap Stack.units) ∧
      (refusals (slots.flatMap Stack.units) target = [] →
        ∀ s ∈ (pourAll slots none target).1, s.count = 0) := by
  induction slots generalizing target with
  | nil => exact ⟨rfl, by simp [pourAll]⟩
  | cons s rest ih =>
      obtain ⟨hquota, htarget, hzero⟩ := s.pour_none target
      simp only [pourAll, hquota, htarget, List.flatMap_cons, fill_append, refusals_append]
      obtain ⟨ihtarget, ihzero⟩ := ih (target.fill s.units)
      refine ⟨ihtarget, ?_⟩
      intro hnone
      obtain ⟨hs, hrest⟩ := List.append_eq_nil_iff.1 hnone
      exact List.forall_mem_cons.2 ⟨hzero hs, ihzero hrest⟩

/-- Both ways of moving everything leave the same target. -/
theorem target_transfer_none (source target : Inventory) :
    (source.transfer target none).target = target.fill source.units :=
  (pourAll_none source.slots target).1

theorem isComplete_transfer_none {source target : Inventory}
    (h : refusals source.units target = []) : (source.transfer target none).isComplete := by
  simp only [Transfer.isComplete, isEmpty, List.all_eq_true, Stack.isVacant, beq_iff_eq]
  exact (pourAll_none source.slots target).2 h

/-- Counting an item counts the units that are the same. -/
theorem countOf_eq_countP (inventory : Inventory) (item : Item) :
    inventory.countOf item = inventory.units.countP (· == item) := by
  obtain ⟨slots⟩ := inventory
  simp only [countOf, countAll, units]
  induction slots with
  | nil => rfl
  | cons s rest ih =>
      rw [List.flatMap_cons, List.countP_append, ← ih]
      cases hs : s.held? with
      | none => simp [Stack.holds, Stack.units, hs]
      | some held =>
          by_cases he : held == item <;>
            simp [Stack.holds, Stack.units, hs, he, List.countP_replicate]

/-- There is a token to pull as long as units of it are counted. -/
theorem pullMatching?_eq_none_iff (inventory : Inventory) (descriptor : Item) :
    inventory.pullMatching? descriptor = none ↔ inventory.countOf descriptor = 0 := by
  rw [pullMatching?, pullWanted?_eq_none_iff, countOf_eq_countP, List.countP_eq_zero]
  simp only [Bool.not_eq_true]

theorem countOf_of_isEmpty {inventory : Inventory} (h : inventory.isEmpty) (item : Item) :
    inventory.countOf item = 0 := by
  rw [countOf_eq_countP, (isEmpty_iff inventory).1 h, List.countP_nil]

theorem countOf_empty (size : Nat) (item : Item) : (empty size).countOf item = 0 := by
  rw [countOf_eq_countP, units_empty]
  rfl

end Inventory

theorem eq_nil_of_countP_beq {items : List Item}
    (h : ∀ x, items.countP (· == x) = 0) : items = [] := by
  cases items with
  | nil => rfl
  | cons item rest =>
      have := h item
      rw [List.countP_cons_of_pos (p := (· == item)) BEq.rfl] at this
      cases this

/-- Everything that is due has been kept exactly when nothing was lost. -/
theorem forall_kept_iff {lost : List Item} {kept due : Item → Nat}
    (h : ∀ x, kept x + lost.countP (· == x) = due x) :
    (∀ x, kept x = due x) ↔ lost = [] := by
  constructor
  · intro hall
    apply eq_nil_of_countP_beq
    intro x
    have := h x
    rw [hall x] at this
    exact Nat.add_eq_left.1 this
  · intro hnone x
    have := h x
    rwa [hnone] at this

/-- A stack that accepts a unit holds one unit more that is the same as it. -/
theorem Stack.countP_units_add? {s t : Stack} {item : Item} (x : Item) (ha : s.accepts item)
    (h : s.add? item = some t) :
    t.units.countP (· == x) = s.units.countP (· == x) + if item == x then 1 else 0 := by
  rw [add?_of_accepts ha, Option.some.injEq] at h
  subst h
  have hnat := toNat_count_add_one ha
  simp only [units, held?_used (count_add_one_ne_zero ha), count_used, hnat,
    List.countP_replicate]
  cases hs : s.held? with
  | none => simp [(held?_eq_none_iff s).1 hs]
  | some held =>
      have hsame : held == item := by
        simp only [accepts, hs, Bool.and_eq_true] at ha
        exact ha.1
      have hx : (held == x) = (item == x) := BEq.congr_left hsame
      simp only [Option.getD_some, hx, List.countP_replicate]
      split <;> rfl

namespace Inventory

theorem countOf_add? {inventory inventory' : Inventory} {item : Item}
    (h : inventory.add? item = some inventory') (x : Item) :
    inventory'.countOf x = inventory.countOf x + if item == x then 1 else 0 := by
  obtain ⟨slots, hs, rfl⟩ := Option.map_eq_some_iff.1 h
  obtain ⟨front, s, t, back, hold, rfl, _, ha, ht⟩ := addTo?_split hs
  simp only [countOf_eq_countP, units, hold, List.flatMap_append, List.flatMap_cons,
    List.countP_append, Stack.countP_units_add? x ha ht]
  omega

theorem countOf_pullWanted? {wanted : Item → Bool} {inventory rest : Inventory} {item : Item}
    (h : inventory.pullWanted? wanted = some (item, rest)) (x : Item) :
    inventory.countOf x = rest.countOf x + if item == x then 1 else 0 := by
  obtain ⟨⟨found, slots⟩, hp, heq⟩ := Option.map_eq_some_iff.1 h
  cases heq
  obtain ⟨front, s, t, back, hold, rfl, _, _, hpull⟩ := pullFrom?_split hp
  simp only [countOf_eq_countP, units, hold, List.flatMap_append, List.flatMap_cons,
    List.countP_append, Stack.units_of_pull? hpull, List.countP_cons]
  omega

theorem countOf_pull? {inventory rest : Inventory} {item : Item}
    (h : inventory.pull? = some (item, rest)) (x : Item) :
    inventory.countOf x = rest.countOf x + if item == x then 1 else 0 :=
  countOf_pullWanted? h x

/-- Every unit offered has arrived or was refused. -/
theorem countOf_fill (items : List Item) (target : Inventory) (x : Item) :
    (target.fill items).countOf x + (refusals items target).countP (· == x) =
      target.countOf x + items.countP (· == x) := by
  induction items generalizing target with
  | nil => rfl
  | cons item rest ih =>
      cases h : target.add? item with
      | some target' =>
          simp only [fill_cons_some _ h, refusals, h, List.countP_cons]
          rw [ih target', countOf_add? h x]
          omega
      | none =>
          simp only [fill_cons_none _ h, refusals, h, List.countP_cons]
          have := ih target
          omega

theorem countOf_fill_of_isEmpty {target : Inventory} (he : target.isEmpty) (items : List Item)
    (x : Item) : (target.fill items).countOf x + (refusals items target).countP (· == x) =
      items.countP (· == x) := by
  rw [countOf_fill, countOf_of_isEmpty he, Nat.zero_add]

theorem countOf_addAll? {target target' : Inventory} {items : List Item}
    (h : target.addAll? items = some target') (x : Item) :
    target'.countOf x = target.countOf x + items.countP (· == x) := by
  obtain ⟨hr, rfl⟩ := addAll?_eq_some_iff.1 h
  have := countOf_fill items target x
  rwa [hr, List.countP_nil, Nat.add_zero] at this

end Inventory
end ChestMachine
