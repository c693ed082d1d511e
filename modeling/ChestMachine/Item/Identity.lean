import ChestMachine.Item.Basic

/-!
When two items are the same. Limits do not count, and neither does the item
that a vacant stack remembers, at any depth of nested boxes. Inventories are
compared slot by slot, so they must have equally many slots.

Main statement: being the same is equality after `identity` has wiped out
what does not count. It is therefore an equivalence.
-/
namespace ChestMachine

mutual

def Item.same : Item → Item → Bool
  | .mk kind label _ payload, b =>
      kind == b.kind && label == b.label && payload.same b.payload
termination_by structural a => a

def Payload.same : Payload → Payload → Bool
  | .nothing, .nothing => true
  | .tag s, .tag t => s == t
  | .box a, .box b => a.same b
  | _, _ => false
termination_by structural a => a

def Inventory.same : Inventory → Inventory → Bool
  | .mk slots, b => Stack.sameAll slots b.slots
termination_by structural a => a

def Stack.same : Stack → Stack → Bool
  | .fresh, .fresh => true
  | .fresh, .used _ n => n == 0
  | .used _ m, .fresh => m == 0
  | .used a m, .used b n => m == n && (m == 0 || a.same b)
termination_by structural a => a

def Stack.sameAll : List Stack → List Stack → Bool
  | [], [] => true
  | s :: ss, t :: ts => s.same t && Stack.sameAll ss ts
  | _, _ => false
termination_by structural a => a

end

mutual

/-- The item with every limit set to zero and every vacant slot forgotten. -/
def Item.identity : Item → Item
  | .mk kind label _ payload => ⟨kind, label, 0, payload.identity⟩

def Payload.identity : Payload → Payload
  | .nothing => .nothing
  | .tag text => .tag text
  | .box contents => .box contents.identity

def Inventory.identity : Inventory → Inventory
  | .mk slots => ⟨Stack.identities slots⟩

def Stack.identity : Stack → Stack
  | .fresh => .fresh
  | .used item count => if count = 0 then .fresh else .used item.identity count

def Stack.identities : List Stack → List Stack
  | [] => []
  | s :: ss => s.identity :: Stack.identities ss

end

mutual

theorem Item.same_iff : ∀ a b : Item, a.same b = true ↔ a.identity = b.identity
  | .mk _ _ _ p, .mk _ _ _ q => by
      simp [Item.same, Item.identity, Payload.same_iff p q, and_assoc]

theorem Payload.same_iff : ∀ a b : Payload, a.same b = true ↔ a.identity = b.identity
  | .box a, .box b => by simp [Payload.same, Payload.identity, Inventory.same_iff a b]
  | .nothing, .nothing | .nothing, .tag _ | .nothing, .box _
  | .tag _, .nothing | .tag _, .tag _ | .tag _, .box _
  | .box _, .nothing | .box _, .tag _ => by simp [Payload.same, Payload.identity]

theorem Inventory.same_iff : ∀ a b : Inventory, a.same b = true ↔ a.identity = b.identity
  | .mk s, .mk t => by simp [Inventory.same, Inventory.identity, Stack.sameAll_iff s t]

theorem Stack.same_iff : ∀ a b : Stack, a.same b = true ↔ a.identity = b.identity
  | .fresh, .fresh | .fresh, .used _ _ | .used _ _, .fresh => by
      simp [Stack.same, Stack.identity]
  | .used a m, .used b n => by
      have := Item.same_iff a b
      simp only [Stack.same, Stack.identity]
      grind

theorem Stack.sameAll_iff : ∀ a b : List Stack,
    Stack.sameAll a b = true ↔ Stack.identities a = Stack.identities b
  | [], [] | [], _ :: _ | _ :: _, [] => by simp [Stack.sameAll, Stack.identities]
  | s :: ss, t :: ts => by
      simp [Stack.sameAll, Stack.identities, Stack.same_iff s t, Stack.sameAll_iff ss ts]

end

instance : BEq Item := ⟨Item.same⟩
instance : BEq Stack := ⟨Stack.same⟩
instance : BEq Inventory := ⟨Inventory.same⟩

namespace Item

theorem beq_iff (a b : Item) : a == b ↔ a.identity = b.identity := same_iff a b

instance : EquivBEq Item where
  rfl := by simp [beq_iff]
  symm := by simp only [beq_iff]; exact Eq.symm
  trans := by simp only [beq_iff]; exact Eq.trans

end Item

theorem Stack.beq_iff (a b : Stack) : a == b ↔ a.identity = b.identity :=
  Stack.same_iff a b

theorem Inventory.beq_iff (a b : Inventory) : a == b ↔ a.identity = b.identity :=
  Inventory.same_iff a b

instance : EquivBEq Stack where
  rfl := by simp [Stack.beq_iff]
  symm := by simp only [Stack.beq_iff]; exact Eq.symm
  trans := by simp only [Stack.beq_iff]; exact Eq.trans

instance : EquivBEq Inventory where
  rfl := by simp [Inventory.beq_iff]
  symm := by simp only [Inventory.beq_iff]; exact Eq.symm
  trans := by simp only [Inventory.beq_iff]; exact Eq.trans

/-- How many units one slot takes is no part of what an item is. -/
@[simp] theorem Item.withLimit_beq (item : Item) (limit : UInt32) :
    (item.withLimit limit == item) = true := by
  rw [Item.beq_iff]; cases item; rfl

end ChestMachine
