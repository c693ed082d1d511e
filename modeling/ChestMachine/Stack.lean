import ChestMachine.Item.Identity

/-!
A stack counts units of one item. Counts are 32-bit words: one unit more is
refused when the next count, as a word, exceeds the limit of the held item.
-/
namespace ChestMachine
namespace Stack

def count : Stack → UInt32
  | .fresh => 0
  | .used _ count => count

/-- The item held, which a vacant stack has none of. -/
def held? : Stack → Option Item
  | .fresh => none
  | .used item count => if count = 0 then none else some item

/-- The item that was adopted last, held or not. -/
def adopted? : Stack → Option Item
  | .fresh => none
  | .used item _ => some item

def isVacant (s : Stack) : Bool :=
  s.count == 0

def isFull (s : Stack) : Bool :=
  match s.held? with
  | none => false
  | some held => held.limit ≤ s.count

def holds (s : Stack) (item : Item) : Bool :=
  match s.held? with
  | none => false
  | some held => held == item

/-- Whether one more unit fits, seen without adding it. -/
def accepts (s : Stack) (item : Item) : Bool :=
  match s.held? with
  | none => 0 < item.limit
  | some held => held == item && !s.isFull

/-- Adds one unit. A vacant stack adopts the item with its limit; a stack in
use keeps the limit that it adopted. -/
def add? (s : Stack) (item : Item) : Option Stack :=
  match s.held? with
  | none => if item.limit < s.count + 1 then none else some (.used item (s.count + 1))
  | some held =>
      if held == item then
        if held.limit < s.count + 1 then none else some (.used held (s.count + 1))
      else none

def pull? : Stack → Option (Item × Stack)
  | .fresh => none
  | .used item count => if count = 0 then none else some (item, .used item (count - 1))

/-- The units held, one entry per unit. -/
def units (s : Stack) : List Item :=
  match s.held? with
  | none => []
  | some held => List.replicate s.count.toNat held

@[simp] theorem count_fresh : fresh.count = 0 := rfl

@[simp] theorem count_used (item : Item) (n : UInt32) : (used item n).count = n := rfl

theorem held?_eq_none_iff (s : Stack) : s.held? = none ↔ s.count = 0 := by
  cases s with
  | fresh => simp [held?]
  | used item n => by_cases h : n = 0 <;> simp [held?, h]

theorem pull?_eq_none_iff (s : Stack) : s.pull? = none ↔ s.count = 0 := by
  cases s with
  | fresh => simp [pull?]
  | used item n => by_cases h : n = 0 <;> simp [pull?, h]

theorem held?_of_pull? {s t : Stack} {item : Item} (h : s.pull? = some (item, t)) :
    s.held? = some item := by
  cases s with
  | fresh => simp [pull?] at h
  | used held n =>
      by_cases hn : n = 0
      · simp [pull?, hn] at h
      · simp only [pull?, hn, if_false, Option.some.injEq, Prod.mk.injEq] at h
        simp [held?, hn, h.1]

theorem count_of_pull? {s t : Stack} {item : Item} (h : s.pull? = some (item, t)) :
    t.count = s.count - 1 := by
  cases s with
  | fresh => simp [pull?] at h
  | used held n =>
      by_cases hn : n = 0
      · simp [pull?, hn] at h
      · simp only [pull?, hn, if_false, Option.some.injEq, Prod.mk.injEq] at h
        simp [← h.2]

end Stack
end ChestMachine
