import ChestMachine.Proofs.Slots

/-!
What the text of an inventory shows. Two inventories are similar if their slots in use agree in
order, with vacant slots between the same neighbours, up to limits and at every depth. Main
statement: similar inventories have the same text.
-/
namespace ChestMachine

mutual

/-- The limit does not show. -/
inductive Item.Similar : Item → Item → Prop where
  | mk {kind label : String} {limit limit' : UInt32} {p q : Payload} : Payload.Similar p q →
      Item.Similar ⟨kind, label, limit, p⟩ ⟨kind, label, limit', q⟩

inductive Payload.Similar : Payload → Payload → Prop where
  | nothing : Payload.Similar .nothing .nothing
  | tag (text : String) : Payload.Similar (.tag text) (.tag text)
  | box {a b : Inventory} : Inventory.Similar a b → Payload.Similar (.box a) (.box b)

inductive Inventory.Similar : Inventory → Inventory → Prop where
  | mk {a b : Inventory} : SimilarSlots a.occupied b.occupied → Inventory.Similar a b

/-- The slots in use agree in order, wherever the first of them is. -/
inductive SimilarSlots : List (Nat × Item × UInt32) → List (Nat × Item × UInt32) → Prop where
  | nil : SimilarSlots [] []
  | cons {i j : Nat} {a b : Item} {count : UInt32} {rest rest' : List (Nat × Item × UInt32)} :
      Item.Similar a b → SimilarBehind i j rest rest' →
      SimilarSlots ((i, a, count) :: rest) ((j, b, count) :: rest')

/-- Behind these indices the slots in use agree in order, and so does where vacant slots lie
between two of them. -/
inductive SimilarBehind : Nat → Nat → List (Nat × Item × UInt32) → List (Nat × Item × UInt32) →
    Prop where
  | nil (i j : Nat) : SimilarBehind i j [] []
  | cons {i i' j j' : Nat} {a b : Item} {count : UInt32}
      {rest rest' : List (Nat × Item × UInt32)} : (i + 1 < i' ↔ j + 1 < j') →
      Item.Similar a b → SimilarBehind i' j' rest rest' →
      SimilarBehind i j ((i', a, count) :: rest) ((j', b, count) :: rest')

end

namespace Stack

/-- The slots in use, under their indices from the given one on. -/
def occupiedFrom (index : Nat) (slots : List Stack) : List (Nat × Item × UInt32) :=
  (slots.zipIdx index).filterMap fun (s, index) => s.held?.map (index, ·, s.count)

theorem occupiedFrom_vacant {s : Stack} (h : s.held? = none) (index : Nat) (rest : List Stack) :
    occupiedFrom index (s :: rest) = occupiedFrom (index + 1) rest := by
  simp only [occupiedFrom, List.zipIdx_cons, List.filterMap_cons, h, Option.map_none]

theorem occupiedFrom_held {s : Stack} {item : Item} (h : s.held? = some item) (index : Nat)
    (rest : List Stack) :
    occupiedFrom index (s :: rest) = (index, item, s.count) :: occupiedFrom (index + 1) rest := by
  simp only [occupiedFrom, List.zipIdx_cons, List.filterMap_cons, h, Option.map_some]

/-- The text of slots in use, when the one ahead of them is at the given index. -/
def behindText : Nat → List (Nat × Item × UInt32) → String
  | _, [] => ""
  | last, (index, item, count) :: rest =>
      (if last + 1 < index then Lead.gap else .stack).text ++ (used item count).text ++
        behindText index rest

def occupiedText : List (Nat × Item × UInt32) → String
  | [] => ""
  | (index, item, count) :: rest => (used item count).text ++ behindText index rest

theorem textAfter_vacant_cons {s : Stack} (h : s.held? = none) (lead : Lead)
    (rest : List Stack) : textAfter lead (s :: rest) = textAfter lead.afterVacant rest := by
  rw [textAfter, if_pos (isVacant_of_none h)]

theorem textAfter_held_cons {s : Stack} {item : Item} (h : s.held? = some item) (lead : Lead)
    (rest : List Stack) :
    textAfter lead (s :: rest) =
      lead.text ++ (used item s.count).text ++ textAfter .stack rest := by
  have hused : ¬ s.isVacant = true := Bool.eq_false_iff.1 (isVacant_of_held h)
  rw [textAfter, if_neg hused, ← used_of_held h]

/-- A gap shows exactly if the next slot in use is not the one right behind. -/
theorem textAfter_behind {last index : Nat} (h : last < index) (slots : List Stack) :
    textAfter (if last + 1 < index then .gap else .stack) slots =
      behindText last (occupiedFrom index slots) := by
  induction slots generalizing last index with
  | nil => rfl
  | cons s rest ih =>
      cases hs : s.held? with
      | none =>
          have hlead : (if last + 1 < index then Lead.gap else .stack).afterVacant =
              if last + 1 < index + 1 then Lead.gap else .stack := by
            rw [if_pos (Nat.succ_lt_succ h)]
            split <;> rfl
          rw [occupiedFrom_vacant hs, textAfter_vacant_cons hs, hlead, ih (Nat.lt_succ_of_lt h)]
      | some item =>
          have hnext := ih (Nat.lt_succ_self index)
          rw [if_neg (Nat.lt_irrefl _)] at hnext
          rw [occupiedFrom_held hs, textAfter_held_cons hs, behindText, hnext]

theorem textAfter_start (index : Nat) (slots : List Stack) :
    textAfter .start slots = occupiedText (occupiedFrom index slots) := by
  induction slots generalizing index with
  | nil => rfl
  | cons s rest ih =>
      cases hs : s.held? with
      | none =>
          rw [occupiedFrom_vacant hs, textAfter_vacant_cons hs]
          exact ih (index + 1)
      | some item =>
          have hnext := textAfter_behind (Nat.lt_succ_self index) rest
          rw [if_neg (Nat.lt_irrefl _)] at hnext
          rw [occupiedFrom_held hs, textAfter_held_cons hs, occupiedText, hnext, Lead.text,
            String.empty_append]

theorem text_used_congr {a b : Item} (h : a.text = b.text) (count : UInt32) :
    (used a count).text = (used b count).text := by
  simp only [text, h]

end Stack

theorem Inventory.text_eq_occupied (inventory : Inventory) :
    inventory.text = "[" ++ Stack.occupiedText inventory.occupied ++ "]" := by
  obtain ⟨slots⟩ := inventory
  rw [text, Stack.textAfter_start 0]
  rfl

open Stack (occupiedText behindText)

mutual

theorem Item.text_of_similar {a b : Item} (h : a.Similar b) : a.text = b.text := by
  match h with
  | .mk hpayload => rw [Item.text, Item.text, Payload.suffix_of_similar hpayload]

theorem Payload.suffix_of_similar {p q : Payload} (h : p.Similar q) : p.suffix = q.suffix := by
  match h with
  | .nothing => rfl
  | .tag text => rfl
  | .box hcontents =>
      rw [Payload.suffix, Payload.suffix, Inventory.text_of_similar hcontents]

theorem Inventory.text_of_similar {a b : Inventory} (h : a.Similar b) : a.text = b.text := by
  match h with
  | .mk hslots =>
      rw [Inventory.text_eq_occupied, Inventory.text_eq_occupied,
        Stack.occupiedText_of_similar hslots]

theorem Stack.occupiedText_of_similar {rows rows' : List (Nat × Item × UInt32)}
    (h : SimilarSlots rows rows') : occupiedText rows = occupiedText rows' := by
  match h with
  | .nil => rfl
  | .cons hitem hrest =>
      rw [occupiedText, occupiedText, Stack.text_used_congr (Item.text_of_similar hitem),
        Stack.behindText_of_similar hrest]

theorem Stack.behindText_of_similar {i j : Nat} {rows rows' : List (Nat × Item × UInt32)}
    (h : SimilarBehind i j rows rows') : behindText i rows = behindText j rows' := by
  match h with
  | .nil i j => rfl
  | .cons hgap hitem hrest =>
      simp only [behindText, hgap, Stack.text_used_congr (Item.text_of_similar hitem),
        Stack.behindText_of_similar hrest]

end

end ChestMachine
