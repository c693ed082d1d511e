import ChestMachine.Proofs.Builtin.Boxes
import ChestMachine.Proofs.Draining
import ChestMachine.Proofs.Filling

/-!
Smelting from end to end. Main statement: smelting an item box that is no smaller than a chest
faults at the first unit that the furnace does not know; where it knows them all, the box comes
back with those products in it that a chest takes, one after the other, and the others are
counted in a warning.
-/
namespace ChestMachine
namespace Builtin

variable {arguments : Vector Item 1} {context : Context} {operation : String} {items : Inventory}

/-- Nothing is smelted behind a unit that the furnace does not know. -/
theorem smeltUnits_of_unknown {units : List Item} {unit : Item}
    (h : units.find? (fun unit => (context.furnace.find? unit).isNone) = some unit) :
    units.mapM (smeltUnit operation) context =
      .error ⟨operation, .unknownItem unit.text⟩ context := by
  induction units with
  | nil => cases h
  | cons first rest ih =>
      rw [List.mapM_cons]
      cases hfound : context.furnace.find? first with
      | none =>
          rw [List.find?_cons_of_pos (by rw [hfound]; rfl), Option.some.injEq] at h
          subst h
          have hfirst : smeltUnit operation first context =
              .error ⟨operation, .unknownItem first.text⟩ context := by
            rw [smeltUnit_eq_orThrow]
            exact orThrow_eq_error_iff.2 ⟨hfound, rfl, rfl⟩
          exact bind_of_error hfirst
      | some product =>
          rw [List.find?_cons_of_neg (by rw [hfound]; exact nofun)] at h
          have hfirst : smeltUnit operation first context = .ok product context := by
            rw [smeltUnit_eq_orThrow]
            exact orThrow_eq_ok_iff.2 ⟨hfound, rfl⟩
          exact (bind_of_ok hfirst).trans (bind_of_error (ih h))

theorem exists_products {units : List Item}
    (h : ∀ unit ∈ units, (context.furnace.find? unit).isSome) :
    ∃ products, products? context units = some products := by
  induction units with
  | nil => exact ⟨[], rfl⟩
  | cons unit rest ih =>
      obtain ⟨hunit, hrest⟩ := List.forall_mem_cons.1 h
      obtain ⟨product, hproduct⟩ := Option.isSome_iff_exists.1 hunit
      obtain ⟨later, hlater⟩ := ih hrest
      rw [products?_eq_some_iff] at hlater
      exact ⟨product :: later, products?_eq_some_iff.2 (.cons hproduct hlater)⟩

/-- Smelting that goes through. What comes back in the box, and the context after it, are told
from the units in the box and what the furnace makes of them. -/
structure Smelts (arguments : Vector Item 1) (context : Context) (items : Inventory)
    (products taken refused : List Item) (made : Inventory) (after : Context) : Prop where
  outputs : List.Forall₂ (fun unit product => context.furnace.find? unit = some product)
    items.units products
  returns : smelt arguments context = .ok [.box made] after
  size : made.size = items.size
  offers : ∃ chest, Inventory.Offers .chest products taken refused chest
  countOf_made : ∀ x, made.countOf x = taken.countP (· == x)
  totalCount_made : made.totalCount + refused.length = items.totalCount
  after_eq : after = { context with warnings := context.warnings ++
    if 0 < refused.length then [.furnaceFull refused.length] else [] }

theorem smelt_of_unknown {unit : Item} (hitems : (arguments.get 0).contents? = some items)
    (h : items.units.find? (fun unit => (context.furnace.find? unit).isNone) = some unit) :
    smelt arguments context =
      .error ⟨Opcode.smelt.name, .unknownItem unit.text⟩ context := by
  simp only [smelt, openBox_eq_orThrow]
  refine (bind_of_ok (orThrow_eq_ok_iff.2 ⟨hitems, rfl⟩)).trans ?_
  rw [← Inventory.fst_pullAll] at h
  exact bind_of_error (smeltUnits_of_unknown h)

/-- The box takes whatever is in the chest. -/
theorem smelts_of_products {products : List Item}
    (hitems : (arguments.get 0).contents? = some items)
    (hsize : Inventory.chestSize ≤ items.size)
    (hproducts : products? context items.units = some products) :
    ∃ taken refused made after,
      Smelts arguments context items products taken refused made after := by
  obtain ⟨taken, hoffers⟩ := Inventory.offers_fill products .chest
  have hfits : Inventory.refusals (Inventory.chest.fill products).units items.pullAll.2 = [] := by
    have hchest := Inventory.withinLimits_fill Inventory.withinLimits_chest products
    apply Inventory.refusals_of_size_le hchest items.isEmpty_pullAll
    rwa [Inventory.size_fill, Inventory.size_pullAll]
  have hreturns := smelt_eq_ok_iff.2 ⟨items, products, hitems, hproducts, rfl, rfl⟩
  rw [Inventory.target_transfer_none, Inventory.refused_deliver] at hreturns
  refine ⟨taken, Inventory.refusals products .chest, _, _, products?_eq_some_iff.1 hproducts,
    hreturns, ?_, ⟨_, hoffers⟩, ?_, ?_, rfl⟩
  · rw [Inventory.size_fill, Inventory.size_pullAll]
  · intro x
    have hbox := Inventory.countOf_fill_of_isEmpty items.isEmpty_pullAll
      (Inventory.chest.fill products).units x
    have hchest := Inventory.countOf_of_offers hoffers x
    rw [Inventory.countOf_of_isEmpty Inventory.isEmpty_chest, Nat.zero_add] at hchest
    rw [hfits, List.countP_nil, Nat.add_zero, ← Inventory.countOf_eq_countP] at hbox
    exact hbox.trans hchest
  · have hbox := Inventory.totalCount_fill_of_isEmpty items.isEmpty_pullAll
      (Inventory.chest.fill products).units
    have hchest := Inventory.totalCount_fill_of_isEmpty Inventory.isEmpty_chest products
    rw [hfits, List.length_nil, Nat.add_zero, Inventory.length_units] at hbox
    rw [← hbox, length_products hproducts, Inventory.length_units] at hchest
    exact hchest

/-- A box that is no smaller than a chest is smelted up to the first unit that the furnace does
not know, or the furnace knows them all and the box comes back. -/
theorem smelt_outcome (hitems : (arguments.get 0).contents? = some items)
    (hsize : Inventory.chestSize ≤ items.size) (context : Context) :
    (∀ fault after, smelt arguments context = .error fault after ↔
      ∃ unit, items.units.find? (fun unit => (context.furnace.find? unit).isNone) = some unit ∧
        fault = ⟨Opcode.smelt.name, .unknownItem unit.text⟩ ∧ after = context) ∧
    ((∀ unit ∈ items.units, (context.furnace.find? unit).isSome) →
      ∃ products taken refused made after,
        Smelts arguments context items products taken refused made after) := by
  have hknown : items.units.find? (fun unit => (context.furnace.find? unit).isNone) = none ↔
      ∀ unit ∈ items.units, (context.furnace.find? unit).isSome := by
    simp only [List.find?_eq_none, Option.isNone_iff_eq_none, ← Option.isSome_iff_ne_none]
  have hsmelts : (∀ unit ∈ items.units, (context.furnace.find? unit).isSome) →
      ∃ products taken refused made after,
        Smelts arguments context items products taken refused made after := by
    intro hall
    obtain ⟨products, hproducts⟩ := exists_products hall
    exact ⟨products, smelts_of_products hitems hsize hproducts⟩
  refine ⟨?_, hsmelts⟩
  intro fault after
  cases hfirst : items.units.find? (fun unit => (context.furnace.find? unit).isNone) with
  | none =>
      obtain ⟨_, _, _, _, _, hsmelt⟩ := hsmelts (hknown.1 hfirst)
      rw [hsmelt.returns]
      constructor
      · exact nofun
      · rintro ⟨_, hunit, _⟩
        cases hunit
  | some unit =>
      rw [smelt_of_unknown hitems hfirst]
      constructor
      · intro herror
        cases herror
        exact ⟨unit, rfl, rfl, rfl⟩
      · rintro ⟨_, hunit, rfl, rfl⟩
        cases hunit
        rfl

end Builtin

namespace Builtin.Slag

/-- Ore smelts into iron that stacks by two, and sand into glass that does not stack. -/
def context : Context :=
  { Context.ofConfig .standard with
    furnace := (ItemMap.empty.insert (.ofKind "ore") ((Item.ofKind "iron").withLimit 2)).insert
      (.ofKind "sand") ((Item.ofKind "glass").withLimit 0) }

/-- A box of the size of a chest. -/
def items : Inventory :=
  Inventory.chest.fill [.ofKind "ore", .ofKind "sand", .ofKind "ore", .ofKind "ore"]

/-- No slot takes the glass. -/
theorem slag_outcome :
    ((#v[.box items] : Vector Item 1).get 0).contents? = some items ∧
    Inventory.chestSize ≤ items.size ∧
    (∃ products taken refused made after,
      Smelts #v[.box items] context items products taken refused made after) ∧
    smelt #v[.box items] context =
      .ok [.box (Inventory.chest.fill
          (List.replicate 3 ((Item.ofKind "iron").withLimit 2)))]
        { context with warnings := [.furnaceFull 1] } := by
  have hsize : Inventory.chestSize ≤ items.size := by
    rw [items, Inventory.size_fill]
    exact Nat.le_refl 27
  have hknown : ∀ unit ∈ items.units, (context.furnace.find? unit).isSome := by decide
  have hitems : ((#v[.box items] : Vector Item 1).get 0).contents? = some items := rfl
  exact ⟨hitems, hsize, (smelt_outcome hitems hsize context).2 hknown, rfl⟩

end Builtin.Slag
end ChestMachine
