import ChestMachine.Program
import ChestMachine.Proofs.Builtin.RoundTrip
import ChestMachine.Proofs.Run.Exchange
import ChestMachine.Proofs.Run.Steps

/-!
Filing a box under a key and fetching it again, over and over. Main statements: depositing
empties the item box into a new entry and uses up a key; fetching takes both back; so
a run goes to and fro between two machines until the cap, whatever the box holds.
-/
namespace ChestMachine

/-- What such a run starts from: an item box, a key box with a key to spare, and a context
without an entry under the key. -/
structure StoreLoop where
  /-- What the item box was filled with, and how often. -/
  items : List Item
  times : Nat
  key : Item
  keyCount : Nat
  /-- How many slots the box with the next token has. -/
  slots : Nat
  context : Context
  key_stacks : 0 < key.limit
  two_keys : 2 ≤ keyCount
  slots_pos : 0 < slots
  new_key : context.store.find? key = none
  order : context.config.restoreOrder = .resultsThenBox

namespace StoreLoop

variable (loop : StoreLoop)

def goods : Inventory :=
  .packed loop.items loop.times

def keys : Inventory :=
  .packed [loop.key] loop.keyCount

/-- The context with the goods filed. -/
def filedContext : Context :=
  loop.context.withStore (loop.context.store.insert loop.key loop.goods)

/-- The machine before a deposit. -/
def seed : Machine :=
  ⟨Inventory.chest.fill [Opcode.set.descriptor, .box loop.goods, .box loop.keys,
      .box ((Inventory.empty loop.slots).fill [Opcode.get.descriptor])],
    loop.context⟩

/-- The machine after it, with an empty item box and one key less. -/
def filed : Machine :=
  ⟨Inventory.chest.fill [Opcode.get.descriptor, .box loop.goods.emptied,
      .box (loop.keys.without 1),
      .box ((Inventory.empty loop.slots).fill [Opcode.set.descriptor])],
    loop.filedContext⟩

theorem goods_units_fit : Inventory.chest.addAll? loop.goods.units = some loop.goods :=
  Inventory.addAll?_units_fill _ _

theorem goods_units_refit : loop.goods.emptied.addAll? loop.goods.units = some loop.goods :=
  Inventory.addAll?_emptied_fill _ _

theorem keys_eq : loop.keys = Inventory.chest.fill (List.replicate loop.keyCount loop.key) := by
  rw [keys, Inventory.packed, List.flatten_replicate_singleton]

theorem two_le_units_keys : 2 ≤ loop.keys.units.length := by
  rw [Inventory.length_units, keys_eq]
  exact Inventory.le_totalCount_fill loop.key_stacks loop.two_keys (by decide)

/-- The key box gives a key, and then another one. -/
theorem units_keys : ∃ later, loop.keys.units = loop.key :: loop.key :: later := by
  have hall : ∀ unit ∈ loop.keys.units, unit = loop.key := by
    rw [keys_eq]
    exact Inventory.units_fill_replicate _ _ _
  have htwo := loop.two_le_units_keys
  match hunits : loop.keys.units with
  | [] | [_] =>
      rw [hunits] at htwo
      contradiction
  | first :: second :: later =>
      rw [hunits] at hall
      obtain ⟨hfirst, hrest⟩ := List.forall_mem_cons.1 hall
      obtain ⟨hsecond, _⟩ := List.forall_mem_cons.1 hrest
      exact ⟨later, by rw [hfirst, hsecond]⟩

theorem pull?_keys : loop.keys.pull? = some (loop.key, loop.keys.without 1) := by
  obtain ⟨later, hunits⟩ := loop.units_keys
  exact Inventory.pull?_of_units hunits

theorem pull?_keys_without :
    (loop.keys.without 1).pull? = some (loop.key, loop.keys.without 2) := by
  obtain ⟨later, hunits⟩ := loop.units_keys
  have hrest : (loop.keys.without 1).units = loop.key :: later := by
    rw [Inventory.units_without, hunits]
    rfl
  rw [Inventory.pull?_of_units hrest, Inventory.without_without]

/-- Both keys go back to where they were. -/
theorem addAll?_keys :
    (loop.keys.without 2).addAll? [loop.key, loop.key] = some loop.keys := by
  have htwo := loop.two_le_units_keys
  rw [keys_eq] at htwo ⊢
  exact Inventory.addAll?_without_fill _ _ _ htwo

theorem deposit_goods :
    Builtin.deposit #v[.box loop.goods, .box loop.keys] loop.context =
      .ok [.box loop.goods.emptied, .box (loop.keys.without 1)] loop.filedContext := by
  obtain ⟨later, hunits⟩ := loop.units_keys
  exact Builtin.deposit_new rfl rfl hunits loop.new_key loop.goods_units_fit

theorem fetch_goods :
    Builtin.fetch #v[.box loop.goods.emptied, .box (loop.keys.without 1)] loop.filedContext =
      .ok [.box loop.goods, .box loop.keys] loop.context := by
  have hfind : loop.filedContext.store.find? loop.key = some loop.goods :=
    ItemMap.find?_insert_self _ _ _
  have herase : loop.filedContext.store.erase loop.key = loop.context.store :=
    ItemMap.erase_insert loop.new_key _
  refine (Builtin.fetch_filed rfl rfl loop.pull?_keys_without hfind loop.goods_units_refit
    loop.addAll?_keys).trans ?_
  exact congrArg (fun store => EStateM.Result.ok _ (loop.context.withStore store)) herase

theorem dispatch_seed :
    RouteTable.builtin.dispatch loop.seed = .ok (some Opcode.set.descriptor) loop.filed := by
  have horder : loop.filedContext.config.restoreOrder = .resultsThenBox := loop.order
  have hrun := Opcode.run_exchange Opcode.set.call .set .get loop.slots_pos horder
    loop.deposit_goods
  exact Opcode.dispatch_laid Opcode.three_boxes hrun

theorem dispatch_filed :
    RouteTable.builtin.dispatch loop.filed = .ok (some Opcode.get.descriptor) loop.seed := by
  have hrun := Opcode.run_exchange Opcode.get.call .get .set loop.slots_pos loop.order
    loop.fetch_goods
  exact Opcode.dispatch_laid Opcode.three_boxes hrun

/-- The machine after so many dispatches. -/
def machineAt (k : Nat) : Machine :=
  if k % 2 = 0 then loop.seed else loop.filed

/-- The opcode that is dispatched next then. -/
def opcodeAt (k : Nat) : Opcode :=
  if k % 2 = 0 then .set else .get

theorem follows : RouteTable.builtin.Follows loop.machineAt fun k => (opcodeAt k).descriptor := by
  intro k
  by_cases h : k % 2 = 0
  · have hnext : ¬ (k + 1) % 2 = 0 := by omega
    simp only [machineAt, opcodeAt, if_pos h, if_neg hnext]
    exact loop.dispatch_seed
  · have hnext : (k + 1) % 2 = 0 := by omega
    simp only [machineAt, opcodeAt, if_neg h, if_pos hnext]
    exact loop.dispatch_filed

theorem text_filed : loop.filed.memory.text =
    "[(" ++ Opcode.get.descriptor.text ++ "),(Box <[]>),(Box <" ++ (loop.keys.without 1).text ++
      ">),(Box <[(" ++ Opcode.set.descriptor.text ++ ")]>)]" := by
  have hticket : ((Inventory.empty loop.slots).fill [Opcode.set.descriptor]).text =
      "[(" ++ Opcode.set.descriptor.text ++ ")]" := Opcode.text_ticket .set loop.slots_pos
  refine (Opcode.text_laid Opcode.three_boxes).trans ?_
  simp only [List.map_cons, List.map_nil, String.join_cons, String.join_nil, Item.text_box,
    hticket, Inventory.text_of_isEmpty (Inventory.isEmpty_emptied _)]
  apply String.toList_inj.1
  simp

theorem machineAt_even (k : Nat) :
    loop.machineAt (2 * k) = loop.seed ∧ opcodeAt (2 * k) = .set := by
  have h : 2 * k % 2 = 0 := Nat.mul_mod_right 2 k
  exact ⟨if_pos h, if_pos h⟩

theorem machineAt_odd (k : Nat) :
    loop.machineAt (2 * k + 1) = loop.filed ∧ opcodeAt (2 * k + 1) = .get := by
  have h : ¬ (2 * k + 1) % 2 = 0 := by omega
  exact ⟨if_neg h, if_neg h⟩

theorem warnings_machineAt (k : Nat) :
    (loop.machineAt k).context.warnings = loop.context.warnings := by
  unfold machineAt
  split <;> rfl

/-- The cap alone stops the run, and nothing is warned about. The machine is back where it
started from after every even number of dispatches; after an odd number the goods are the
last entry of the store, and a key is gone. -/
theorem run_alternates :
    RouteTable.builtin.run loop.seed =
      (⟨.iterationCap loop.context.config.maxIterations,
        (List.range (loop.context.config.maxIterations.toNat + 1)).map
          (RouteTable.snapshotOf loop.machineAt fun k => (opcodeAt k).descriptor)⟩,
        loop.machineAt loop.context.config.maxIterations.toNat) ∧
    RouteTable.builtin.Follows loop.machineAt (fun k => (opcodeAt k).descriptor) ∧
    (∀ k, loop.machineAt (2 * k) = loop.seed ∧ opcodeAt (2 * k) = .set) ∧
    (∀ k, loop.machineAt (2 * k + 1) = loop.filed ∧ opcodeAt (2 * k + 1) = .get) ∧
    (∀ k, (loop.machineAt k).context.warnings = loop.context.warnings) ∧
    loop.keys.pull? = some (loop.key, loop.keys.without 1) ∧
    loop.filed.memory.text =
      "[(" ++ Opcode.get.descriptor.text ++ "),(Box <[]>),(Box <" ++ (loop.keys.without 1).text ++
        ">),(Box <[(" ++ Opcode.set.descriptor.text ++ ")]>)]" ∧
    loop.filed.context.store.entries = loop.context.store.entries ++ [(loop.key, loop.goods)] :=
  ⟨RouteTable.run_of_follows loop.follows, loop.follows, loop.machineAt_even, loop.machineAt_odd,
    loop.warnings_machineAt, loop.pull?_keys, loop.text_filed,
    ItemMap.entries_insert loop.new_key _⟩

/-- The loop of the program that files a box of cobblestone. -/
def cobblestone : StoreLoop where
  items := [.ofKind "cobblestone"]
  times := 64
  key := .paper "key"
  keyCount := 2
  slots := 27
  context := .ofConfig Program.storeLoop.config
  key_stacks := by decide
  two_keys := Nat.le_refl 2
  slots_pos := by decide
  new_key := rfl
  order := rfl

theorem cobblestone_run_alternates :
    cobblestone.seed.memory = Program.storeLoop.seed ∧
    RouteTable.builtin.run cobblestone.seed =
      (⟨.iterationCap 4, (List.range 5).map
        (RouteTable.snapshotOf cobblestone.machineAt fun k => (opcodeAt k).descriptor)⟩,
        cobblestone.seed) :=
  ⟨rfl, (run_alternates cobblestone).1⟩

end StoreLoop
end ChestMachine
