import Mathlib.Data.List.ModifyLast
import ChestMachine.Proofs.Runs

/-!
Run lengths as an encoding of the scan order. Units are pulled one by one, and each is compared
with the unit that the run under way began with. Main statement: this ends, with every slot
vacant, and what has been counted are the lengths of the longest stretches of equal units,
across slots, gaps and limits.
-/
namespace ChestMachine

/-- How far a count has come: the inventory as it is then, the unit that the last run began
with, and the lengths of the runs so far. -/
structure RunCount where
  rest : Inventory
  current? : Option Item
  lengths : List Nat

namespace RunCount

/-- Pulls one more unit, which lengthens the last run or begins another one. -/
def next? (count : RunCount) : Option RunCount :=
  match count.rest.pull? with
  | none => none
  | some (unit, rest) =>
      if count.current?.any (· == unit) then
        some ⟨rest, count.current?, count.lengths.modifyLast (· + 1)⟩
      else some ⟨rest, some unit, count.lengths ++ [1]⟩

/-- Goes on until there is nothing to pull. -/
inductive Ends : RunCount → RunCount → Prop where
  | done {count : RunCount} : count.next? = none → Ends count count
  | next {count later last : RunCount} : count.next? = some later → Ends later last →
      Ends count last

variable {inventory : Inventory} {current unit : Item} {later : List Item}

theorem next?_of_vacant (h : inventory.units = []) (current? : Option Item)
    (lengths : List Nat) : next? ⟨inventory, current?, lengths⟩ = none := by
  simp only [next?, (Inventory.pull?_eq_none_iff inventory).2 h]

theorem next?_of_same (h : inventory.units = unit :: later) (hsame : current == unit)
    (before : List Nat) (length : Nat) :
    next? ⟨inventory, some current, before ++ [length]⟩ =
      some ⟨inventory.without 1, some current, before ++ [length + 1]⟩ := by
  simp only [next?, Inventory.pull?_of_units h, Option.any_some, if_pos hsame,
    List.modifyLast_concat]

theorem next?_of_other (h : inventory.units = unit :: later) (hother : ¬ current == unit)
    (lengths : List Nat) :
    next? ⟨inventory, some current, lengths⟩ =
      some ⟨inventory.without 1, some unit, lengths ++ [1]⟩ := by
  simp only [next?, Inventory.pull?_of_units h, Option.any_some, if_neg hother]

theorem next?_of_first (h : inventory.units = unit :: later) (lengths : List Nat) :
    next? ⟨inventory, none, lengths⟩ =
      some ⟨inventory.without 1, some unit, lengths ++ [1]⟩ := by
  simp only [next?, Inventory.pull?_of_units h, Option.any_none, Bool.false_eq_true, if_false]

theorem units_without_one (h : inventory.units = unit :: later) :
    (inventory.without 1).units = later := by
  rw [Inventory.units_without, h, List.drop_one, List.tail_cons]

/-- With a run under way, the count ends with it lengthened and the later runs behind it. -/
theorem ends_from {units : List Item} (h : inventory.units = units) (current : Item)
    (before : List Nat) (length : Nat) :
    ∃ last, Ends ⟨inventory, some current, before ++ [length]⟩
      ⟨inventory.without units.length, some last,
        before ++ runLengthsFrom current length units⟩ := by
  induction units generalizing inventory current before length with
  | nil =>
      refine ⟨current, ?_⟩
      rw [List.length_nil, Inventory.without_zero]
      exact .done (next?_of_vacant h _ _)
  | cons unit later ih =>
      have hlater := ih (units_without_one h)
      rw [Inventory.without_without, Nat.add_comm] at hlater
      by_cases hsame : current == unit
      · obtain ⟨last, hends⟩ := hlater current before (length + 1)
        refine ⟨last, .next (next?_of_same h hsame before length) ?_⟩
        rwa [runLengthsFrom, if_pos hsame]
      · obtain ⟨last, hends⟩ := hlater unit (before ++ [length]) 1
        refine ⟨last, .next (next?_of_other h hsame _) ?_⟩
        rwa [runLengthsFrom, if_neg hsame,
          List.append_cons before length (runLengthsFrom unit 1 later)]

/-- The count ends, with the run lengths of all units. -/
theorem ends_pullRuns (inventory : Inventory) :
    ∃ last?, Ends ⟨inventory, none, []⟩ ⟨inventory.pullRuns.2, last?, inventory.pullRuns.1⟩ := by
  have hlengths : inventory.pullRuns.1 = runLengths inventory.units :=
    congrArg runLengths inventory.fst_pullAll
  have hrest : inventory.pullRuns.2 = inventory.without inventory.units.length := by
    rw [inventory.length_units]
    exact inventory.snd_pullMany inventory.totalCount
  rw [hlengths, hrest]
  cases h : inventory.units with
  | nil =>
      refine ⟨none, ?_⟩
      rw [List.length_nil, Inventory.without_zero]
      exact .done (next?_of_vacant h _ _)
  | cons unit later =>
      obtain ⟨last, hends⟩ := ends_from (units_without_one h) unit [] 1
      rw [Inventory.without_without, Nat.add_comm] at hends
      exact ⟨some last, .next (next?_of_first h []) hends⟩

end RunCount

/-- The stretches put together are the units; the units of a stretch are all the same item, and
those of neighbouring stretches are not, so that none can be longer. -/
structure Stretches (units : List Item) (runs : List (List Item)) : Prop where
  whole : runs.flatten = units
  nonempty : ∀ run ∈ runs, run ≠ []
  equal : ∀ run ∈ runs, ∀ a ∈ run, ∀ b ∈ run, a == b
  apart : runs.IsChain fun run next => ∀ a ∈ run, ∀ b ∈ next, (a == b) = false

/-- The units of a stretch are all the same item if neighbours are. -/
theorem equal_of_isChain {run : List Item} (h : run.IsChain fun a b => a == b) :
    ∀ a ∈ run, ∀ b ∈ run, a == b := by
  cases run with
  | nil => exact List.forall_mem_nil _
  | cons first rest =>
      have hfirst := beq_of_isChain h
      intro a ha b hb
      exact BEq.trans (BEq.symm (hfirst a ha)) (hfirst b hb)

theorem isChain_of_equal {run : List Item} (h : ∀ a ∈ run, ∀ b ∈ run, a == b) :
    run.IsChain fun a b => a == b := by
  apply List.Pairwise.isChain
  rw [List.pairwise_iff_forall_sublist]
  intro a b hab
  have hmem := hab.subset
  exact h a (hmem List.mem_cons_self) b (hmem (List.mem_cons_of_mem _ List.mem_cons_self))

/-- There is one way to cut units into stretches. -/
theorem stretches_iff {units : List Item} {runs : List (List Item)} :
    Stretches units runs ↔ units.splitBy (· == ·) = runs := by
  rw [List.splitBy_eq_iff]
  constructor
  · intro h
    refine ⟨h.whole.symm, fun hnil => h.nonempty [] hnil rfl,
      fun run hrun => isChain_of_equal (h.equal run hrun), ?_⟩
    apply h.apart.imp_of_mem_imp
    intro run next hrun hnext hother
    have hr := h.nonempty run hrun
    have hn := h.nonempty next hnext
    exact ⟨hr, hn, hother _ (List.getLast_mem hr) _ (List.head_mem hn)⟩
  · intro ⟨hwhole, hnil, hchain, hapart⟩
    have hequal := fun run hrun => equal_of_isChain (hchain run hrun)
    refine ⟨hwhole.symm, fun run hrun h => hnil (h ▸ hrun), hequal, ?_⟩
    apply hapart.imp_of_mem_imp
    intro run next hrun hnext ⟨hr, hn, hother⟩ a ha b hb
    have hlast := hequal run hrun a ha _ (List.getLast_mem hr)
    have hhead := hequal next hnext _ (List.head_mem hn) b hb
    rwa [BEq.congr_left hlast, ← BEq.congr_right hhead]

/-- Counting the runs of an inventory ends and leaves nothing in it. The counts are the lengths
of the stretches that its units are cut into in scan order, in the only way there is; so each of
them is at least one, and together they are all its units. -/
theorem Inventory.pullRuns_encodes (inventory : Inventory) :
    (∃ last?, RunCount.Ends ⟨inventory, none, []⟩
      ⟨inventory.pullRuns.2, last?, inventory.pullRuns.1⟩) ∧
    inventory.pullRuns.2.isEmpty ∧
    (∃ runs, Stretches inventory.units runs ∧ inventory.pullRuns.1 = runs.map List.length ∧
      ∀ others, Stretches inventory.units others → others = runs) ∧
    (∀ length ∈ inventory.pullRuns.1, 1 ≤ length) ∧
    inventory.pullRuns.1.sum = inventory.totalCount := by
  have hruns : Stretches inventory.units inventory.runs := stretches_iff.2 rfl
  refine ⟨RunCount.ends_pullRuns inventory, isEmpty_pullAll inventory,
    ⟨inventory.runs, hruns, fst_pullRuns inventory, ?_⟩, ?_, sum_pullRuns inventory⟩
  · intro others hothers
    exact (stretches_iff.1 hothers).symm
  · rw [fst_pullRuns, List.forall_mem_map]
    intro run hrun
    exact List.length_pos_iff.2 (hruns.nonempty run hrun)

/-- Two papers with a gap between them, and with different limits, are one run; the same paper
behind another one is not part of it. -/
example :
    (Inventory.pullRuns ⟨[.used ((Item.paper "1").withLimit 1) 1, .used (.paper "2") 0,
      .used (.paper "1") 3, .used (.paper "2") 2, .used (.paper "1") 1]⟩).1 = [4, 2, 1] := by
  decide

end ChestMachine
