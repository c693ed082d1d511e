import ChestMachine.Inventory.Basic

/-!
Moving many units at once: delivering a list of units, emptying an inventory,
counting its runs of equal units, and transferring one inventory into another
slot by slot.
-/
namespace ChestMachine

/-- The target after a delivery, and how many units it refused. -/
structure Delivery where
  target : Inventory
  refused : Nat

/-- Both inventories after a transfer. -/
structure Transfer where
  source : Inventory
  target : Inventory

/-- One slot after pouring it out: the stack that stays, what is left of the
quota, and the target. -/
structure Poured where
  stack : Stack
  quota : Option Nat
  target : Inventory

namespace Inventory

/-- Offers the units one by one; what is refused is lost. -/
def deliver : List Item → Inventory → Delivery
  | [], target => ⟨target, 0⟩
  | item :: rest, target =>
      match target.add? item with
      | some target' => deliver rest target'
      | none =>
          let delivery := deliver rest target
          { delivery with refused := delivery.refused + 1 }

def fill (target : Inventory) (items : List Item) : Inventory :=
  (deliver items target).target

/-- A chest that the items were put into, over and over. -/
def packed (items : List Item) (times : Nat) : Inventory :=
  chest.fill (List.replicate times items).flatten

/-- Pulls so many units, or all there are. -/
def pullMany : Nat → Inventory → List Item × Inventory
  | 0, inventory => ([], inventory)
  | n + 1, inventory =>
      match inventory.pull? with
      | none => ([], inventory)
      | some (item, rest) =>
          let (items, last) := pullMany n rest
          (item :: items, last)

def pullAll (inventory : Inventory) : List Item × Inventory :=
  inventory.pullMany inventory.totalCount

/-- Pulls every unit out and delivers it; what is left of the source comes
first. -/
def drain (source target : Inventory) : Inventory × Delivery :=
  let (units, rest) := source.pullAll
  (rest, deliver units target)

end Inventory

/-- The lengths of the runs, when one of the given length is already under
way. -/
def runLengthsFrom (current : Item) (length : Nat) : List Item → List Nat
  | [] => [length]
  | unit :: rest =>
      if current == unit then runLengthsFrom current (length + 1) rest
      else length :: runLengthsFrom unit 1 rest

/-- Units of one item that follow each other form one run, also across slots. -/
def runLengths : List Item → List Nat
  | [] => []
  | unit :: rest => runLengthsFrom unit 1 rest

/-- The run lengths of all units, which leave the inventory. -/
def Inventory.pullRuns (inventory : Inventory) : List Nat × Inventory :=
  let (units, rest) := inventory.pullAll
  (runLengths units, rest)

/-- Pours units of one stack into a target until the stack or the quota is
used up, or a unit is refused. A refused unit is lost. -/
def Stack.pourUnits (item : Item) :
    Nat → Option Nat → Inventory → Nat × Option Nat × Inventory
  | 0, quota, target => (0, quota, target)
  | n + 1, some 0, target => (n + 1, some 0, target)
  | n + 1, quota, target =>
      match target.add? item with
      | some target' => pourUnits item n (quota.map (· - 1)) target'
      | none => (n, quota, target)

def Stack.pour : Stack → Option Nat → Inventory → Poured
  | .fresh, quota, target => ⟨.fresh, quota, target⟩
  | .used item count, quota, target =>
      let (left, quota', target') := pourUnits item count.toNat quota target
      ⟨.used item left.toUInt32, quota', target'⟩

namespace Inventory

def pourAll : List Stack → Option Nat → Inventory → List Stack × Inventory
  | [], _, target => ([], target)
  | s :: rest, quota, target =>
      let poured := s.pour quota target
      let (rest', target') := pourAll rest poured.quota poured.target
      (poured.stack :: rest', target')

/-- Moves units slot by slot, no more of them than a limit allows. -/
def transfer (source target : Inventory) (limit : Option Nat) : Transfer :=
  let (slots, target') := pourAll source.slots limit target
  ⟨⟨slots⟩, target'⟩

end Inventory

/-- A transfer is complete when its source ends up with no units, whether or
not all of them arrived. -/
def Transfer.isComplete (t : Transfer) : Bool :=
  t.source.isEmpty

namespace Inventory

theorem size_deliver (items : List Item) (target : Inventory) :
    (deliver items target).target.size = target.size := by
  induction items generalizing target with
  | nil => rfl
  | cons item rest ih =>
      simp only [deliver]
      split
      · rename_i target' h
        rw [ih, size_add? h]
      · exact ih target

@[simp] theorem size_fill (target : Inventory) (items : List Item) :
    (target.fill items).size = target.size :=
  size_deliver items target

theorem length_pourAll (slots : List Stack) (quota : Option Nat) (target : Inventory) :
    (pourAll slots quota target).1.length = slots.length := by
  induction slots generalizing quota target with
  | nil => rfl
  | cons s rest ih => simp [pourAll, ih]

@[simp] theorem size_source_transfer (source target : Inventory) (limit : Option Nat) :
    (source.transfer target limit).source.size = source.size :=
  length_pourAll source.slots limit target

theorem size_pourUnits (item : Item) (n : Nat) (quota : Option Nat) (target : Inventory) :
    (Stack.pourUnits item n quota target).2.2.size = target.size := by
  fun_induction Stack.pourUnits item n quota target with
  | case1 | case2 | case4 => rfl
  | case3 n quota target _ target' hadd ih => rw [ih, size_add? hadd]

theorem size_pourAll (slots : List Stack) (quota : Option Nat) (target : Inventory) :
    (pourAll slots quota target).2.size = target.size := by
  induction slots generalizing quota target with
  | nil => rfl
  | cons s rest ih =>
      cases s with
      | fresh => exact ih quota target
      | used item count => exact (ih _ _).trans (size_pourUnits item count.toNat quota target)

@[simp] theorem size_target_transfer (source target : Inventory) (limit : Option Nat) :
    (source.transfer target limit).target.size = target.size :=
  size_pourAll source.slots limit target

end Inventory
end ChestMachine
