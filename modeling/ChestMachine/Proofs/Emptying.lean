import ChestMachine.Proofs.Filling
import ChestMachine.Proofs.Pouring

/-!
Two ways of moving everything. A drain pulls one unit after the other from the first slot that
has one, and offers them all; a transfer goes on to the next slot at the first refusal. Main
statement: both leave the same target, and the units that a drain loses are those that a
transfer loses and those that it leaves where they are.
-/
namespace ChestMachine
namespace Inventory

/-- Units are pulled from the source and offered to the target until there are no more. Tells
how many were lost, and what both inventories are then. -/
inductive Drains : Inventory → Inventory → Nat → Inventory → Inventory → Prop where
  | done {source target : Inventory} : source.pull? = none → Drains source target 0 source target
  | takes {source rest target next last final : Inventory} {unit : Item} {lost : Nat} :
      source.pull? = some (unit, rest) → target.add? unit = some next →
      Drains rest next lost last final → Drains source target lost last final
  | loses {source rest target last final : Inventory} {unit : Item} {lost : Nat} :
      source.pull? = some (unit, rest) → target.add? unit = none →
      Drains rest target lost last final → Drains source target (lost + 1) last final

variable {source target target' : Inventory} {item : Item}

theorem drains_pullMany {n : Nat} (h : source.units.length ≤ n) (target : Inventory) :
    Drains source target (deliver (source.pullMany n).1 target).refused (source.pullMany n).2
      (deliver (source.pullMany n).1 target).target := by
  induction n generalizing source target with
  | zero => exact .done ((pull?_eq_none_iff source).2 (List.length_eq_zero_iff.1 (Nat.le_zero.1 h)))
  | succ n ih =>
      cases hp : source.pull? with
      | none =>
          rw [pullMany_of_none hp]
          exact .done hp
      | some found =>
          obtain ⟨unit, rest⟩ := found
          rw [units_of_pull? hp, List.length_cons, Nat.succ_le_succ_iff] at h
          rw [pullMany_succ_of_pull? hp]
          cases ha : target.add? unit with
          | some next =>
              simp only [deliver, ha]
              exact .takes hp ha (ih h next)
          | none =>
              simp only [deliver, ha]
              exact .loses hp ha (ih h target)

/-- A drain is that loop, to its end. -/
theorem drains_drain (source target : Inventory) :
    Drains source target (source.drain target).2.refused (source.drain target).1
      (source.drain target).2.target :=
  drains_pullMany (Nat.le_of_eq source.length_units) target

theorem deliver_drain (source target : Inventory) :
    (source.drain target).2 = deliver source.units target := by
  rw [drain, ← fst_pullAll]

theorem totalCount_stows {n : Nat} (h : target.Stows item n target') :
    target'.totalCount = target.totalCount + n := by
  induction h with
  | zero inventory => rfl
  | succ hfirst _ ih =>
      rw [ih, totalCount_add? (add?_of_firstFit hfirst)]
      omega

/-- The units that some amounts have lost together. -/
def lostAll (amounts : List Amount) : Nat :=
  (amounts.map Amount.lost).sum

variable {left : Option Nat} {slots slots' : List Stack} {amounts : List Amount}

theorem totalCount_pours {s : Stack} {amount : Amount} (h : Pours left s target amount target') :
    target'.totalCount = target.totalCount + amount.moved := by
  cases h with
  | vacant => rfl
  | held _ _ hstows => exact totalCount_stows hstows

/-- What the slots give, and nothing else, arrives or is lost. -/
theorem counts_poursAll (h : PoursAll left slots target amounts slots' target') :
    target'.totalCount = target.totalCount + movedAll amounts ∧
      countAll slots = countAll slots' + movedAll amounts + lostAll amounts := by
  induction h with
  | nil => exact ⟨rfl, rfl⟩
  | @cons left s rest rest' target mid target' amount amounts hpours hle _ ih =>
      obtain ⟨htarget, hslots⟩ := ih
      have hmid := totalCount_pours hpours
      have hstack := s.toNat_count_lowered (amount.moved + amount.lost)
      simp only [movedAll, lostAll, List.map_cons, List.sum_cons, countAll, List.foldr_cons]
        at htarget hslots ⊢
      constructor <;> omega

/-- A drain takes the units one by one, until the source has none. It leaves the target that a
transfer leaves, and refuses as many units as the transfer leaves behind or loses. -/
theorem drain_agrees (source target : Inventory) :
    Drains source target (source.drain target).2.refused (source.drain target).1
      (source.drain target).2.target ∧
    (source.drain target).1.isEmpty ∧
    (source.drain target).2.target = (source.transfer target none).target ∧
    (∃ amounts, PoursAll none source.slots target amounts
      (source.transfer target none).source.slots (source.transfer target none).target) ∧
    ∀ amounts, PoursAll none source.slots target amounts
        (source.transfer target none).source.slots (source.transfer target none).target →
      (source.drain target).2.refused =
        (source.transfer target none).source.totalCount + lostAll amounts := by
  refine ⟨drains_drain source target, isEmpty_pullAll source, ?_, pourAll_pours _ _ _, ?_⟩
  · rw [deliver_drain, target_transfer_none, fill]
  · intro amounts hpours
    obtain ⟨harrived, hleft⟩ := counts_poursAll hpours
    have hoffered := totalCount_fill source.units target
    rw [← target_transfer_none, length_units] at hoffered
    rw [deliver_drain, refused_deliver]
    simp only [totalCount] at hoffered harrived hleft ⊢
    omega

end Inventory

namespace Pantry

def source : Inventory :=
  ⟨[.used (.ofKind "stone") 6, .used (.ofKind "ash") 1]⟩

def target : Inventory :=
  ⟨[.used (.ofKind "stone") 62]⟩

/-- Two of six stones find room. The transfer loses one stone, leaves three, and goes on to the
ash, which it loses as well. -/
theorem pantry_drain_agrees :
    (source.drain target).2.refused = 5 ∧ (source.transfer target none).source.totalCount = 3 ∧
      (source.drain target).2.target = (source.transfer target none).target ∧
      ∃ amounts, Inventory.lostAll amounts = 2 ∧
        PoursAll none source.slots target amounts (source.transfer target none).source.slots
          (source.transfer target none).target := by
  obtain ⟨_, _, htarget, ⟨amounts, hpours⟩, hlost⟩ := Inventory.drain_agrees source target
  have hrefused : (source.drain target).2.refused = 5 := by decide
  have hleft : (source.transfer target none).source.totalCount = 3 := by decide
  have hsum := hlost amounts hpours
  rw [hrefused, hleft] at hsum
  exact ⟨hrefused, hleft, htarget, amounts, by omega, hpours⟩

end Pantry
end ChestMachine
