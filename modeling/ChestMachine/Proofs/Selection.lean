import ChestMachine.Proofs.OneUnit
import ChestMachine.Proofs.Surfacing

/-!
What a selection does to memory. Main statement: it always goes through; it finds the first
route whose token is in memory, and nothing only if there is no token; and of all units one
token at most moves, from the first slot with it up to the first vacant slot, if that lies
ahead.
-/
namespace ChestMachine

namespace Stack

theorem holds_eq_any (s : Stack) (item : Item) : s.holds item = s.held?.any (· == item) := by
  cases h : s.held? with
  | none => simp only [holds, h, Option.any_none]
  | some held => simp only [holds, h, Option.any_some]

end Stack

namespace Inventory

/-- One unit has come up from the first slot that holds the descriptor to the first vacant
slot, if that lies ahead; otherwise nothing has changed. -/
inductive Brings (descriptor : Item) (slots : List Stack) : List Stack → Prop where
  | stays {index : Nat} : slots.findIdx? (·.holds descriptor) = some index →
      (∀ s ∈ slots.take index, s.isVacant = false) → Brings descriptor slots slots
  | moves {ahead index : Nat} {s : Stack} {token : Item} :
      slots.findIdx? (·.holds descriptor) = some index → slots[index]? = some s →
      s.held? = some token → slots.findIdx? Stack.isVacant = some ahead → ahead < index →
      Brings descriptor slots
        ((slots.set ahead (.used token 1)).set index (.used token (s.count - 1)))

variable {descriptor token : Item} {slots slots' : List Stack}

theorem findIdx?_holds_of_pullFrom? {mid : List Stack}
    (h : pullFrom? (· == descriptor) slots = some (token, mid)) :
    ∃ index s, slots.findIdx? (·.holds descriptor) = some index ∧ slots[index]? = some s ∧
      s.held? = some token ∧ mid = slots.set index (.used token (s.count - 1)) := by
  have hpull : pullWanted? ⟨slots⟩ (· == descriptor) = some (token, ⟨mid⟩) := by
    rw [pullWanted?, h, Option.map_some]
  obtain ⟨index, s, hindex, hheld, hslots⟩ := (gives_of_pullWanted? hpull).slot
  simp only [← Stack.holds_eq_any] at hindex
  exact ⟨index, s, hindex, hslots.before, hheld, hslots.after⟩

theorem findIdx?_behind {fit : Stack → Bool} {s : Stack} {rest : List Stack} {index : Nat}
    (hs : fit s = false) (h : rest.findIdx? fit = some index) :
    (s :: rest).findIdx? fit = some (index + 1) := by
  rw [List.findIdx?_cons, hs, h]
  rfl

/-- A token that was put back is where it was, or it has come up to the first vacant slot. -/
theorem brings_of_surfaces (h : Surfaces descriptor token slots slots') :
    Brings descriptor slots slots' := by
  induction h with
  | @back s rest hheld hsame =>
      have hholds : s.holds descriptor = true := by
        rw [Stack.holds_eq_any, hheld]
        exact hsame
      have hindex : (s :: rest).findIdx? (·.holds descriptor) = some 0 := by
        rw [List.findIdx?_cons, if_pos hholds]
      exact .stays hindex nofun
  | @ahead s rest rest' hheld hpull _ =>
      obtain ⟨index, t, hindex, ht, htoken, rfl⟩ := findIdx?_holds_of_pullFrom? hpull
      have hholds : s.holds descriptor = false := by
        rw [Stack.holds_eq_any, hheld]
        rfl
      have hahead : (s :: rest).findIdx? Stack.isVacant = some 0 := by
        rw [List.findIdx?_cons, if_pos (Stack.isVacant_of_none hheld)]
      exact .moves (findIdx?_behind hholds hindex) ht htoken hahead (Nat.succ_pos index)
  | @behind s held rest rest' hheld hother _ ih =>
      have hholds : s.holds descriptor = false := by
        rw [Stack.holds_eq_any, hheld]
        exact hother
      have hused := Stack.isVacant_of_held hheld
      cases ih with
      | stays hindex hfront =>
          refine .stays (findIdx?_behind hholds hindex) ?_
          rw [List.take_succ_cons]
          exact List.forall_mem_cons.2 ⟨hused, hfront⟩
      | moves hindex ht htoken hahead hlt =>
          exact .moves (findIdx?_behind hholds hindex) ht htoken (findIdx?_behind hused hahead)
            (Nat.succ_lt_succ hlt)

end Inventory

namespace RouteTable

variable {table : RouteTable} {memory memory' : Inventory}

/-- The routes ahead of the one that is found have no token in memory. -/
theorem countOf_of_select {index : Fin table.length}
    (h : select table memory = .ok (some index) memory') :
    ∀ earlier < index, memory.countOf (table.get earlier).descriptor = 0 := by
  induction table generalizing memory' with
  | nil => exact index.elim0
  | cons route rest ih =>
      intro earlier hlt
      cases hp : memory.pullMatching? route.descriptor with
      | some found =>
          obtain ⟨token, mid⟩ := found
          simp only [select, get_bind, hp, set_bind, bind_eq_ok_iff, pure_eq_ok_iff] at h
          obtain ⟨_, _, _, hindex, _⟩ := h
          cases hindex
          exact absurd hlt (Nat.not_lt_zero _)
      | none =>
          simp only [select_cons_of_none hp, bind_eq_ok_iff, pure_eq_ok_iff] at h
          obtain ⟨found, last, hselect, hindex, rfl⟩ := h
          obtain ⟨later, rfl, rfl⟩ := Option.map_eq_some_iff.1 hindex.symm
          cases earlier using Fin.cases with
          | zero => exact (Inventory.pullMatching?_eq_none_iff memory _).1 hp
          | succ earlier => exact ih hselect earlier (Fin.succ_lt_succ_iff.1 hlt)

/-- The route is the first one with a token in memory, and at most one token has moved. -/
structure Finds (table : RouteTable) (index : Fin table.length) (memory memory' : Inventory) :
    Prop where
  present : 0 < memory.countOf (table.get index).descriptor
  first : ∀ earlier < index, memory.countOf (table.get earlier).descriptor = 0
  counts : ∀ x, memory'.countOf x = memory.countOf x
  slots : Inventory.Brings (table.get index).descriptor memory.slots memory'.slots

/-- A selection goes through. It finds nothing exactly if no route has a token in memory, which
stays as it is then, and otherwise the first route that has one. -/
theorem select_finds_first (table : RouteTable) (hw : memory.WithinLimits) :
    ∃ found memory', select table memory = .ok found memory' ∧
      (found = none ↔ ∀ route ∈ table, memory.countOf route.descriptor = 0) ∧
      (found = none → memory' = memory) ∧
      ∀ index, found = some index → table.Finds index memory memory' := by
  cases select_finds table (Inventory.add?_of_pullMatching? hw) with
  | inl hnone =>
      have hcounts := (select_eq_none_iff.1 hnone).2
      exact ⟨none, memory, hnone, iff_of_true rfl hcounts, fun _ => rfl, nofun⟩
  | inr hsome =>
      obtain ⟨index, token, mid, memory', hselect, hp, ha⟩ := hsome
      have hpresent := (Inventory.pullMatching?_isSome_iff memory _).1 (Option.isSome_of_eq_some hp)
      refine ⟨some index, memory', hselect, iff_of_false nofun ?_, nofun, ?_⟩
      · intro hnone
        exact Nat.ne_of_gt hpresent (hnone _ (List.get_mem _ _))
      · intro found hfound
        cases hfound
        obtain ⟨last, ha', hsurfaces⟩ := Inventory.surfaces_of_pullMatching? hw hp
        rw [ha, Option.some.injEq] at ha'
        subst ha'
        refine ⟨hpresent, countOf_of_select hselect, ?_, Inventory.brings_of_surfaces hsurfaces⟩
        intro x
        rw [Inventory.countOf_add? ha, Inventory.countOf_pullWanted? hp]

end RouteTable

namespace Alcove

/-- Two opcodes behind a gap, of which the later one comes first in the table. -/
def memory : Inventory :=
  ⟨[.used (.ofKind "stone") 3, .used (.ofKind "ash") 0, .used Opcode.smelt.descriptor 1,
    .used (Opcode.set.descriptor.withLimit 2) 2]⟩

def cleared : Inventory :=
  ⟨[.used (.ofKind "stone") 3, .used (Opcode.set.descriptor.withLimit 2) 1,
    .used Opcode.smelt.descriptor 1, .used (Opcode.set.descriptor.withLimit 2) 1]⟩

/-- One of the two tokens comes up into the gap. -/
theorem alcove_finds_first :
    memory.WithinLimits ∧ ∃ index, index.val = 1 ∧
      RouteTable.builtin.select memory = .ok (some index) cleared ∧
      RouteTable.builtin.Finds index memory cleared := by
  have hsound : memory.Sound := rfl
  have hlimits := Inventory.withinLimits_of_obeys hsound
  obtain ⟨found, memory', hselect, _, _, hfinds⟩ :=
    RouteTable.builtin.select_finds_first hlimits
  cases found with
  | none => cases hselect
  | some index =>
      have hfound := hselect
      cases hselect
      exact ⟨hlimits, _, rfl, hfound, hfinds _ rfl⟩

end Alcove
end ChestMachine
