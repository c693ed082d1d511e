import ChestMachine.Proofs.Layout
import ChestMachine.Proofs.Similarity

/-!
How inventories without gaps read. Main statements: vacant slots at the end do not show;
and rows read as their stacks with a comma between two of them.
-/
namespace ChestMachine
namespace Stack

theorem textAfter_vacant {slots : List Stack} (h : ∀ s ∈ slots, s.count = 0) (lead : Lead) :
    textAfter lead slots = "" := by
  induction slots generalizing lead with
  | nil => rfl
  | cons s rest ih =>
      obtain ⟨hs, hrest⟩ := List.forall_mem_cons.1 h
      rw [textAfter_vacant_cons ((held?_eq_none_iff s).2 hs), ih hrest]

theorem textAfter_ofRow {row : Item × UInt32} (h : row.2 ≠ 0) (lead : Lead)
    (rest : List Stack) :
    textAfter lead (ofRow row :: rest) =
      lead.text ++ (ofRow row).text ++ textAfter .stack rest :=
  textAfter_held_cons (held?_used h) lead rest

theorem textAfter_rows {rows : Rows} (hs : Rows.Stocked rows) {back : List Stack}
    (hback : ∀ s ∈ back, s.count = 0) :
    textAfter .stack (rows.map ofRow ++ back) =
      String.join (rows.map fun row => "," ++ (ofRow row).text) := by
  induction rows with
  | nil => exact textAfter_vacant hback _
  | cons row rest ih =>
      obtain ⟨⟨hpos, _⟩, hrest⟩ := List.forall_mem_cons.1 hs
      rw [List.map_cons, List.cons_append, textAfter_ofRow hpos, ih hrest, List.map_cons,
        String.join_cons]
      rfl

theorem text_ofRow_one (item : Item) : (ofRow (item, 1)).text = "(" ++ item.text ++ ")" := rfl

end Stack

theorem Item.text_box (contents : Inventory) :
    (Item.box contents).text = "Box <" ++ contents.text ++ ">" := by
  have hlead : "Box <" = "Box" ++ " <" := rfl
  rw [hlead, String.append_assoc, String.append_assoc]
  rfl

namespace Inventory

theorem text_of_isEmpty {inventory : Inventory} (h : inventory.isEmpty) :
    inventory.text = "[]" := by
  simp only [isEmpty, List.all_eq_true, Stack.isVacant, beq_iff_eq] at h
  obtain ⟨slots⟩ := inventory
  rw [text, Stack.textAfter_vacant h]
  rfl

theorem text_ofRows {row : Item × UInt32} {rows : Rows} (hs : Rows.Stocked (row :: rows))
    (size : Nat) :
    (ofRows size (row :: rows)).text =
      "[" ++ ((Stack.ofRow row).text ++
        String.join (rows.map fun later => "," ++ (Stack.ofRow later).text)) ++ "]" := by
  obtain ⟨⟨hpos, _⟩, hrest⟩ := List.forall_mem_cons.1 hs
  have hback : ∀ s ∈ List.replicate (size - (row :: rows).length) Stack.fresh, s.count = 0 := by
    intro s hmem
    rw [List.eq_of_mem_replicate hmem]
    rfl
  rw [ofRows, text, List.map_cons, List.cons_append, Stack.textAfter_ofRow hpos,
    Stack.textAfter_rows hrest hback, Lead.text, String.empty_append]

end Inventory
end ChestMachine
