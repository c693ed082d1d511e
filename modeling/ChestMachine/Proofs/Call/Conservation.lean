import ChestMachine.Proofs.Call.Restore

/-!
What a successful call leaves in memory. Main statement: all units are there
but for those of the saved state that memory refused. There are none of these if
two slots are vacant besides the saved state. A drain that leaves its source
empty counts as a success, though, and the last unit of a slot may be refused
and the slot be empty all the same; so there can be some.
-/
namespace ChestMachine
namespace Call

variable {n : Nat} {call : Call n} {machine machine' : Machine}

namespace Prepared

/-- How many units that are the same as `x` should be in memory afterwards. -/
def due (p : call.Prepared machine) (x : Item) : Nat :=
  p.rest.countOf x + (if p.nextToken == x then 1 else 0) + (if p.newBox == x then 1 else 0) +
    p.results.countP (· == x)

/-- The saved units that memory refuses when it is restored. -/
def lost (p : call.Prepared machine) : List Item :=
  p.frame.lost p.context.config.restoreOrder (.empty machine.memory.size)

theorem due_eq (p : call.Prepared machine) (order : RestoreOrder) (x : Item) :
    p.due x =
      p.rest.countOf x + (p.frame.front order ++ p.frame.back order).countP (· == x) := by
  rw [Frame.countP_front_back, ← Nat.add_assoc, ← Nat.add_assoc]
  rfl

end Prepared

/-- Every unit is in memory or was a saved unit that memory refused. -/
theorem countOf_run {rule : Item → Bool} (h : machine.memory.obeys rule)
    (p : call.Prepared machine) {memory : Inventory}
    (hr : p.frame.restore call.name p.context.config.restoreOrder p.reached.memory =
      .ok () memory) (x : Item) :
    memory.countOf x + p.lost.countP (· == x) = p.due x := by
  have hcount := Frame.countOf_restore hr x
  have hsettled := p.settled_reached h
  have hvacant : p.reached.memory.countOf x = 0 := by
    rw [Inventory.countOf_eq_countP, Inventory.units_eq_units_items, ← Inventory.items_settled,
      hsettled, ← Inventory.units_eq_units_items, Inventory.units_empty]
    rfl
  have hsaved : p.frame.saved.countOf x = p.rest.countOf x :=
    Inventory.countOf_repacked (p.rest_obeys h) x
  rwa [Frame.lost_of_settled hsettled, hvacant, hsaved, Nat.zero_add, ← p.due_eq] at hcount

theorem lost_of_free_slots {rule : Item → Bool} (h : machine.memory.obeys rule)
    (p : call.Prepared machine) (hroom : p.rest.items.length + 2 ≤ machine.memory.size) :
    p.lost = [] := by
  apply Frame.lost_of_room (Inventory.obeys_repacked (p.rest_obeys h))
  · have hnext := (p.next_obeys h).1.2
    intro unit hunit
    cases horder : p.context.config.restoreOrder <;> rw [horder] at hunit <;>
      simp only [Frame.front, List.mem_cons, List.not_mem_nil, or_false] at hunit
    · rwa [hunit]
    · obtain rfl | rfl := hunit
      · exact hnext
      · exact show (0 : UInt32) < 1 by decide
    · rwa [hunit]
  · have hpacked := (Inventory.repacked_spec (p.rest_obeys h)).2.2.2
    exact Nat.le_trans (Nat.add_le_add_right hpacked 2) hroom

/-- Nothing is lost where boxes do not stack. -/
theorem lost_of_singleBoxes (h : machine.memory.SingleBoxes) (p : call.Prepared machine) :
    p.lost = [] := by
  apply lost_of_free_slots h p
  exact Nat.le_trans (p.two_slots_free h) machine.memory.length_items_le_size

/-- A successful call keeps all units exactly when no saved unit was refused. -/
theorem run_keeps_iff (h : machine.memory.Sound) (hrun : call.run machine = .ok () machine') :
    ∃ p : call.Prepared machine,
      (∀ x, machine'.memory.countOf x + p.lost.countP (· == x) = p.due x) ∧
      ((∀ x, machine'.memory.countOf x = p.due x) ↔ p.lost = []) ∧
      (p.rest.items.length + 2 ≤ machine.memory.size → p.lost = []) ∧
      (machine.memory.SingleBoxes → p.lost = []) := by
  obtain ⟨p, _, hrestore⟩ := (run_eq_ok_iff h).1 hrun
  have hcount := countOf_run h p hrestore
  refine ⟨p, hcount, ?_, lost_of_free_slots h p, fun hs => lost_of_singleBoxes hs p⟩
  constructor
  · intro hall
    apply eq_nil_of_countP_beq
    intro x
    have := hcount x
    rw [hall x] at this
    exact Nat.add_eq_left.1 this
  · intro hnone x
    have := hcount x
    rwa [hnone] at this

namespace Crowded

/-- A box that stacks, with one unit in its only slot. -/
def bundle : Item :=
  (Item.box ((Inventory.empty 1).fill [.ofKind "t"])).withLimit 64

def discard : Call 0 :=
  ⟨"op", fun _ => pure []⟩

/-- One slot holds the return token, the continuation box and a saved unit. -/
def before : Machine :=
  ⟨(Inventory.empty 2).fill [bundle, bundle, bundle, .ofKind "a"],
    .ofConfig { Config.standard with restoreOrder := .boxThenState }⟩

def after : Machine :=
  ⟨(Inventory.empty 2).fill [.ofKind "t", .box ((Inventory.empty 1).fill [bundle])],
    before.context⟩

theorem discard_keeps_iff :
    before.memory.Sound ∧ discard.run before = .ok () after ∧
    ∃ p : discard.Prepared before,
      (∀ x, after.memory.countOf x + p.lost.countP (· == x) = p.due x) ∧
      ((∀ x, after.memory.countOf x = p.due x) ↔ p.lost = []) ∧
      (p.rest.items.length + 2 ≤ before.memory.size → p.lost = []) ∧
      (before.memory.SingleBoxes → p.lost = []) :=
  ⟨rfl, rfl, run_keeps_iff rfl rfl⟩

/-- Both saved units are refused, and the call succeeds without them. -/
theorem discard_loses_units :
    before.memory.Sound ∧ discard.run before = .ok () after ∧
    ∃ p : discard.Prepared before, p.lost = [bundle, .ofKind "a"] ∧
      after.memory.countOf (.ofKind "a") = 0 ∧ p.due (.ofKind "a") = 1 := by
  refine ⟨rfl, rfl, ?_⟩
  refine ⟨⟨bundle, #v[], bundle, (Inventory.empty 1).fill [.ofKind "t"], .ofKind "t",
    ⟨[.used (.ofKind "t") 0]⟩, (Inventory.empty 1).fill [bundle],
    (Inventory.empty 2).fill [bundle, .ofKind "a"], [], before.context,
    rfl, rfl, rfl, rfl, rfl⟩, ?_, ?_, ?_⟩
  · rfl
  · rfl
  · rfl

end Crowded
end Call
end ChestMachine
