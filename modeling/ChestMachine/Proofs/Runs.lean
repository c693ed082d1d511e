import Mathlib.Data.List.SplitBy
import ChestMachine.Inventory.Transfer
import ChestMachine.Proofs.Pulling

/-!
Runs of equal units. Main statements: what is counted when units are pulled are the
lengths of the longest stretches of equal units, in scan order; and every unit is in one of
them.
-/
namespace ChestMachine

/-- The stretches of equal units in scan order, each as long as possible. -/
def Inventory.runs (inventory : Inventory) : List (List Item) :=
  inventory.units.splitBy (· == ·)

theorem runLengthsFrom_append {current : Item} {run : List Item}
    (h : ∀ unit ∈ run, current == unit) (n : Nat) (later : List Item) :
    runLengthsFrom current n (run ++ later) = runLengthsFrom current (n + run.length) later := by
  induction run generalizing n with
  | nil => rfl
  | cons unit rest ih =>
      obtain ⟨hunit, hrest⟩ := List.forall_mem_cons.1 h
      rw [List.cons_append, runLengthsFrom, if_pos hunit, ih hrest, List.length_cons]
      congr 1
      omega

/-- All units of a run are the same as its first one. -/
theorem beq_of_isChain {first : Item} {rest : List Item}
    (h : (first :: rest).IsChain fun a b => a == b) : ∀ unit ∈ first :: rest, first == unit := by
  induction rest generalizing first with
  | nil =>
      intro unit hunit
      rw [List.mem_singleton.1 hunit]
      exact BEq.rfl
  | cons second rest ih =>
      obtain ⟨hsecond, hrest⟩ := List.isChain_cons_cons.1 h
      refine List.forall_mem_cons.2 ⟨BEq.rfl, ?_⟩
      intro unit hunit
      exact BEq.trans hsecond (ih hrest unit hunit)

/-- A run ends where the next unit is another item. -/
theorem runLengthsFrom_of_ne {current : Item} {later : List Item}
    (h : ∀ unit ∈ later.head?, (current == unit) = false) (n : Nat) :
    runLengthsFrom current n later = n :: runLengths later := by
  cases later with
  | nil => rfl
  | cons unit rest =>
      have hother := h unit rfl
      simp only [runLengthsFrom, runLengths, hother, Bool.false_eq_true, if_false]

theorem runLengths_flatten {runs : List (List Item)} (hn : ∀ run ∈ runs, run ≠ [])
    (hequal : ∀ run ∈ runs, run.IsChain fun a b => a == b)
    (hapart : runs.IsChain fun a b => ∃ ha hb, (a.getLast ha == b.head hb) = false) :
    runLengths runs.flatten = runs.map List.length := by
  induction runs with
  | nil => rfl
  | cons run later ih =>
      obtain ⟨hrun, hlater⟩ := List.forall_mem_cons.1 hequal
      obtain ⟨hne, hnlater⟩ := List.forall_mem_cons.1 hn
      obtain ⟨first, rest, rfl⟩ := List.exists_cons_of_ne_nil hne
      have hsame := beq_of_isChain hrun
      have hends : ∀ unit ∈ later.flatten.head?, (first == unit) = false := by
        intro unit hunit
        cases later with
        | nil => cases hunit
        | cons next others =>
            obtain ⟨⟨hlast, hnext, hother⟩, _⟩ := List.isChain_cons_cons.1 hapart
            obtain ⟨second, rest', rfl⟩ := List.exists_cons_of_ne_nil hnext
            cases hunit
            rwa [BEq.congr_left (hsame _ (List.getLast_mem hlast))]
      rw [List.flatten_cons, List.cons_append, runLengths,
        runLengthsFrom_append (List.forall_mem_cons.1 hsame).2, runLengthsFrom_of_ne hends,
        ih hnlater hlater hapart.tail, List.map_cons, List.length_cons, Nat.add_comm]

theorem Inventory.flatten_runs (inventory : Inventory) : inventory.runs.flatten = inventory.units :=
  List.flatten_splitBy _ _

/-- Pulling all units counts the lengths of their runs. -/
theorem Inventory.fst_pullRuns (inventory : Inventory) :
    inventory.pullRuns.1 = inventory.runs.map List.length := by
  have hlengths : runLengths inventory.runs.flatten = inventory.runs.map List.length :=
    runLengths_flatten (fun _ => List.ne_nil_of_mem_splitBy)
      (fun _ => List.isChain_of_mem_splitBy) (List.isChain_getLast_head_splitBy _ _)
  rw [flatten_runs, ← fst_pullAll] at hlengths
  exact hlengths

/-- Every unit that leaves the inventory is in one of the runs. -/
theorem Inventory.sum_pullRuns (inventory : Inventory) :
    inventory.pullRuns.1.sum = inventory.totalCount := by
  rw [fst_pullRuns, ← List.length_flatten, flatten_runs, length_units]

end ChestMachine
