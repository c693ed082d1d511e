import ChestMachine.Proofs.Slotwise

/-!
Rules that the items of an inventory obey at every depth of nested boxes.
Whatever the rule is, an inventory that obeys it keeps within the limits of
its items, and every operation on inventories preserves this, so that it holds of
all inventories that are built by operations. Vacant slots are free to remember
anything.
-/
namespace ChestMachine

mutual

/-- The item satisfies the rule, and so does everything inside it. -/
def Item.obeys (rule : Item → Bool) : Item → Bool
  | .mk kind label limit payload =>
      rule ⟨kind, label, limit, payload⟩ && payload.obeys rule

def Payload.obeys (rule : Item → Bool) : Payload → Bool
  | .nothing | .tag _ => true
  | .box contents => contents.obeys rule

def Inventory.obeys (rule : Item → Bool) : Inventory → Bool
  | .mk slots => Stack.allObey rule slots

def Stack.obeys (rule : Item → Bool) : Stack → Bool
  | .fresh => true
  | .used item count => count == 0 || (decide (count ≤ item.limit) && item.obeys rule)

def Stack.allObey (rule : Item → Bool) : List Stack → Bool
  | [] => true
  | s :: rest => s.obeys rule && Stack.allObey rule rest

end

/-- A box has its slot to itself. -/
def Item.singleBox (item : Item) : Bool :=
  !item.isBox || item.limit == 1

/-- No slot holds more units than its item allows, at any depth. Adding,
pulling and transferring lead nowhere else. -/
abbrev Inventory.Sound (inventory : Inventory) : Prop :=
  inventory.obeys fun _ => true

/-- A sound inventory whose boxes, at any depth, do not stack. -/
abbrev Inventory.SingleBoxes (inventory : Inventory) : Prop :=
  inventory.obeys Item.singleBox

variable {rule : Item → Bool}

namespace Item

theorem obeys_iff (item : Item) :
    item.obeys rule ↔ rule item ∧ item.payload.obeys rule := by
  cases item
  simp [Item.obeys]

theorem obeys_contents {item : Item} {contents : Inventory} (h : item.obeys rule)
    (hc : item.contents? = some contents) : contents.obeys rule := by
  obtain ⟨_, hp⟩ := item.obeys_iff.1 h
  cases item with
  | mk kind label limit payload =>
      cases payload with
      | nothing | tag _ => cases hc
      | box inner =>
          cases hc
          exact hp

theorem obeys_box {contents : Inventory} (h : contents.obeys rule)
    (hr : rule (.box contents)) : (Item.box contents).obeys rule :=
  (obeys_iff _).2 ⟨hr, h⟩

theorem contents?_identity (item : Item) :
    item.identity.contents? = item.contents?.map Inventory.identity := by
  cases item with
  | mk kind label limit payload => cases payload <;> rfl

theorem isBox_congr {a b : Item} (h : a == b) : a.isBox = b.isBox := by
  have hc := congrArg contents? ((beq_iff a b).1 h)
  rw [contents?_identity, contents?_identity] at hc
  have := congrArg Option.isSome hc
  rwa [Option.isSome_map, Option.isSome_map] at this

theorem isBox_of_contents? {item : Item} {contents : Inventory}
    (h : item.contents? = some contents) : item.isBox := by
  rw [isBox, h]
  rfl

theorem limit_of_singleBox {item : Item} (h : item.singleBox) (hb : item.isBox) :
    item.limit = 1 := by
  simpa [singleBox, hb] using h

theorem singleBox_of_obeys {item : Item} (h : item.obeys singleBox) : item.singleBox :=
  (item.obeys_iff.1 h).1

end Item

namespace Stack

theorem allObey_iff (slots : List Stack) :
    Stack.allObey rule slots ↔ ∀ s ∈ slots, s.obeys rule := by
  induction slots with
  | nil => simp [Stack.allObey]
  | cons s rest ih => simp [Stack.allObey, ← ih]

theorem obeys_iff (s : Stack) :
    s.obeys rule ↔ ∀ item, s.held? = some item → s.count ≤ item.limit ∧ item.obeys rule := by
  cases s with
  | fresh => simp [Stack.obeys, held?]
  | used item n => by_cases h : n = 0 <;> simp [Stack.obeys, held?, h]

theorem withinLimit_of_obeys {s : Stack} (h : s.obeys rule) : s.WithinLimit := by
  intro item hheld
  exact ((obeys_iff s).1 h item hheld).1

theorem obeys_of_count {s : Stack} (h : s.count = 0) : s.obeys rule := by
  rw [obeys_iff, (held?_eq_none_iff s).2 h]
  intro item hi
  cases hi

theorem obeys_fresh : Stack.fresh.obeys rule := obeys_of_count rfl

theorem obeys_add? {s t : Stack} {item : Item} (hs : s.obeys rule) (hi : item.obeys rule)
    (ha : s.accepts item) (h : s.add? item = some t) : t.obeys rule := by
  rw [add?_of_accepts ha, Option.some.injEq] at h
  subst h
  rw [obeys_iff]
  intro held hheld
  rw [held?_used (count_add_one_ne_zero ha)] at hheld
  cases hheld
  refine ⟨?_, ?_⟩
  · rw [count_used, UInt32.le_iff_toNat_le, toNat_count_add_one ha]
    exact count_of_accepts ha
  · cases hs' : s.held? with
    | none => exact hi
    | some held => exact ((obeys_iff s).1 hs held hs').2

/-- What comes out of a stack was allowed in it, and stacks at all. -/
theorem obeys_pull? {s t : Stack} {item : Item} (hs : s.obeys rule)
    (h : s.pull? = some (item, t)) : (item.obeys rule ∧ 0 < item.limit) ∧ t.obeys rule := by
  obtain ⟨hheld, rfl⟩ := pull?_eq_some_iff.1 h
  obtain ⟨hle, hi⟩ := (obeys_iff s).1 hs item hheld
  have hne := count_ne_zero hheld
  have hpos := word_toNat_ne_zero hne
  have hsub := word_toNat_sub_one hne
  rw [UInt32.le_iff_toNat_le] at hle
  refine ⟨⟨hi, ?_⟩, ?_⟩
  · rw [UInt32.lt_iff_toNat_lt, UInt32.toNat_zero]
    omega
  · rw [obeys_iff]
    intro held hh
    by_cases hlater : s.count - 1 = 0
    · rw [hlater] at hh
      cases hh
    · rw [held?_used hlater] at hh
      cases hh
      refine ⟨?_, hi⟩
      rw [count_used, UInt32.le_iff_toNat_le, hsub]
      omega

theorem keeps_obeys : Keeps (·.obeys rule) (·.obeys rule) where
  add := obeys_add?
  pull := obeys_pull?

/-- A stack that has given a unit takes it back. -/
theorem accepts_of_pull? {s t : Stack} {item : Item} (hs : s.obeys rule)
    (h : s.pull? = some (item, t)) : t.accepts item := by
  obtain ⟨hheld, rfl⟩ := pull?_eq_some_iff.1 h
  have hne := count_ne_zero hheld
  have hpos := word_toNat_ne_zero hne
  have hle := UInt32.le_iff_toNat_le.1 ((obeys_iff s).1 hs item hheld).1
  apply accepts_used
  rw [UInt32.lt_iff_toNat_lt, word_toNat_sub_one hne]
  omega

end Stack

namespace Inventory

theorem obeys_iff (inventory : Inventory) :
    inventory.obeys rule ↔ ∀ s ∈ inventory.slots, s.obeys rule := by
  cases inventory
  exact Stack.allObey_iff _

theorem withinLimits_of_obeys {inventory : Inventory} (h : inventory.obeys rule) :
    inventory.WithinLimits := by
  intro s hs
  exact Stack.withinLimit_of_obeys ((obeys_iff inventory).1 h s hs)

theorem obeys_empty (size : Nat) : (empty size).obeys rule :=
  (obeys_iff _).2 (every_empty Stack.obeys_fresh size)

theorem obeys_add? {inventory inventory' : Inventory} {item : Item}
    (hs : inventory.obeys rule) (hi : item.obeys rule)
    (h : inventory.add? item = some inventory') : inventory'.obeys rule := by
  rw [obeys_iff] at hs ⊢
  exact every_add? Stack.keeps_obeys hs hi h

theorem obeys_pullWanted? {inventory inventory' : Inventory} {wanted : Item → Bool} {item : Item}
    (hs : inventory.obeys rule) (h : inventory.pullWanted? wanted = some (item, inventory')) :
    (item.obeys rule ∧ 0 < item.limit) ∧ inventory'.obeys rule := by
  rw [obeys_iff] at hs ⊢
  exact every_pullWanted? Stack.keeps_obeys hs h

theorem obeys_transfer {source target : Inventory} (hs : source.obeys rule)
    (ht : target.obeys rule) (limit : Option Nat) :
    (source.transfer target limit).source.obeys rule ∧
      (source.transfer target limit).target.obeys rule := by
  rw [obeys_iff] at hs ht
  rw [obeys_iff, obeys_iff]
  exact every_transfer Stack.keeps_obeys hs ht limit

/-- What has been pulled can go back. -/
theorem add?_of_pullWanted? {inventory inventory' : Inventory} {wanted : Item → Bool}
    {item : Item} (hs : inventory.obeys rule)
    (h : inventory.pullWanted? wanted = some (item, inventory')) :
    ∃ inventory'', inventory'.add? item = some inventory'' := by
  obtain ⟨⟨i, slots⟩, hp, heq⟩ := Option.map_eq_some_iff.1 h
  cases heq
  obtain ⟨front, s, t, back, hold, rfl, _, _, hpull⟩ := pullFrom?_split hp
  rw [obeys_iff, hold] at hs
  have ha := Stack.accepts_of_pull? (hs s (List.mem_append_right _ List.mem_cons_self)) hpull
  apply Option.isSome_iff_exists.1
  rw [add?_isSome_iff]
  exact ⟨t, List.mem_append_right _ List.mem_cons_self, ha⟩

theorem obeys_pull? {inventory inventory' : Inventory} {item : Item}
    (hs : inventory.obeys rule) (h : inventory.pull? = some (item, inventory')) :
    (item.obeys rule ∧ 0 < item.limit) ∧ inventory'.obeys rule :=
  obeys_pullWanted? hs h

theorem obeys_pullMany {inventory : Inventory} (hs : inventory.obeys rule) (n : Nat) :
    (∀ item ∈ (inventory.pullMany n).1, item.obeys rule ∧ 0 < item.limit) ∧
      (inventory.pullMany n).2.obeys rule := by
  induction n generalizing inventory with
  | zero => exact ⟨by simp [pullMany], hs⟩
  | succ n ih =>
      simp only [pullMany]
      split
      · exact ⟨by simp, hs⟩
      · rename_i item rest hp
        obtain ⟨hi, hr⟩ := obeys_pull? hs hp
        obtain ⟨hitems, hlast⟩ := ih hr
        exact ⟨List.forall_mem_cons.2 ⟨hi, hitems⟩, hlast⟩

/-- The units of an inventory are what can be pulled from it. -/
theorem obeys_units {inventory : Inventory} (hs : inventory.obeys rule) :
    ∀ item ∈ inventory.units, item.obeys rule ∧ 0 < item.limit := by
  have := (obeys_pullMany hs inventory.totalCount).1
  rwa [(pullMany_units _ inventory).1, ← length_units, List.take_length] at this

theorem obeys_fill {items : List Item} {target : Inventory} (ht : target.obeys rule)
    (hi : ∀ item ∈ items, item.obeys rule) : (target.fill items).obeys rule := by
  induction items generalizing target with
  | nil => exact ht
  | cons item rest ih =>
      obtain ⟨hhead, hrest⟩ := List.forall_mem_cons.1 hi
      simp only [fill, deliver]
      split
      · rename_i target' h
        exact ih (obeys_add? ht hhead h) hrest
      · exact ih ht hrest

/-- Inventories that are built out of empty ones by adding, pulling and
transferring. The boxes that are added are closed around such inventories. -/
inductive Built (rule : Item → Bool) : Inventory → Prop where
  | empty (size : Nat) : Built rule (.empty size)
  | add {inventory inventory' : Inventory} {item : Item} : Built rule inventory → rule item →
      (∀ contents, item.contents? = some contents → Built rule contents) →
      inventory.add? item = some inventory' → Built rule inventory'
  | pull {inventory inventory' : Inventory} {wanted : Item → Bool} {item : Item} :
      Built rule inventory → inventory.pullWanted? wanted = some (item, inventory') →
      Built rule inventory'
  | source {source target : Inventory} (limit : Option Nat) : Built rule source →
      Built rule target → Built rule (source.transfer target limit).source
  | target {source target : Inventory} (limit : Option Nat) : Built rule source →
      Built rule target → Built rule (source.transfer target limit).target

theorem obeys_of_built {inventory : Inventory} (h : inventory.Built rule) :
    inventory.obeys rule := by
  induction h with
  | empty size => exact obeys_empty size
  | @add _ _ item _ hrule _ ha hinventory hcontents =>
      apply obeys_add? hinventory _ ha
      refine item.obeys_iff.2 ⟨hrule, ?_⟩
      cases item with
      | mk kind label limit payload =>
          cases payload with
          | nothing | tag _ => rfl
          | box inner => exact hcontents inner rfl
  | pull _ hp hinventory => exact (obeys_pullWanted? hinventory hp).2
  | source limit _ _ hs ht => exact (obeys_transfer hs ht limit).1
  | target limit _ _ hs ht => exact (obeys_transfer hs ht limit).2

end Inventory
end ChestMachine
