import ChestMachine.Proofs.Counting
import ChestMachine.Proofs.Places
import ChestMachine.Proofs.Pulling

/-!
What a transfer moves, slot by slot. Main statement: every slot gives as many units as it has,
as there is room for and as the limit leaves, and each of them goes into the first slot that
accepts it; one unit more is lost exactly where the room ends before the units and the limit.
-/
namespace ChestMachine

/-- How many units are missing up to the limit of the item held. -/
def Stack.shortfall (s : Stack) : Nat :=
  match s.held? with
  | none => 0
  | some held => held.limit.toNat - s.count.toNat

namespace Inventory

/-- What is missing in the slots that hold the item, and as many units as stack of it for each
vacant slot. -/
def room (inventory : Inventory) (item : Item) : Nat :=
  ((inventory.slots.filter (·.holds item)).map Stack.shortfall).sum +
    inventory.slots.countP Stack.isVacant * item.limit.toNat

/-- One unit goes into the first slot that accepts it. -/
def FirstFit (item : Item) (inventory inventory' : Inventory) : Prop :=
  ∃ index s t, inventory.slotFor? item = some index ∧ inventory.slots[index]? = some s ∧
    s.add? item = some t ∧ inventory' = ⟨inventory.slots.set index t⟩

/-- So many units go in, one after the other. -/
inductive Stows (item : Item) : Nat → Inventory → Inventory → Prop where
  | zero (inventory : Inventory) : Stows item 0 inventory inventory
  | succ {n : Nat} {inventory mid inventory' : Inventory} : FirstFit item inventory mid →
      Stows item n mid inventory' → Stows item (n + 1) inventory inventory'

end Inventory

/-- What a slot gives away. -/
structure Amount where
  moved : Nat
  lost : Nat

/-- So many units, but no more than the limit if there is one. -/
def capped (limit : Option Nat) (n : Nat) : Nat :=
  limit.elim n (min n)

/-- What becomes of a number of units when there is so much room and so much of the limit is
left. -/
def Amount.of (count room : Nat) (left : Option Nat) : Amount where
  moved := min count (capped left room)
  lost := if room < count ∧ ∀ l ∈ left, room < l then 1 else 0

/-- A slot gives its amount to the target. -/
inductive Pours (left : Option Nat) (s : Stack) (target : Inventory) : Amount → Inventory → Prop
    where
  | vacant : s.held? = none → Pours left s target ⟨0, 0⟩ target
  | held {item : Item} {target' : Inventory} {amount : Amount} : s.held? = some item →
      amount = .of s.count.toNat (target.room item) left →
      target.Stows item amount.moved target' → Pours left s target amount target'

/-- The slots give their amounts one after the other, each to the target as the slots before
have left it. -/
inductive PoursAll : Option Nat → List Stack → Inventory → List Amount → List Stack → Inventory →
    Prop where
  | nil (left : Option Nat) (target : Inventory) : PoursAll left [] target [] [] target
  | cons {left : Option Nat} {s : Stack} {rest rest' : List Stack} {target mid target' : Inventory}
      {amount : Amount} {amounts : List Amount} : Pours left s target amount mid →
      amount.moved + amount.lost ≤ s.count.toNat →
      PoursAll (left.map (· - amount.moved)) rest mid amounts rest' target' →
      PoursAll left (s :: rest) target (amount :: amounts)
        (s.lowered (amount.moved + amount.lost) :: rest') target'

namespace Inventory

variable {inventory inventory' : Inventory} {item : Item}

theorem places_eq_shortfall (s : Stack) (item : Item) :
    s.places item = (if s.holds item then s.shortfall else 0) +
      if s.isVacant then item.limit.toNat else 0 := by
  cases hs : s.held? with
  | none =>
      have hcount := (Stack.held?_eq_none_iff s).1 hs
      simp [Stack.places, Stack.holds, Stack.isVacant, hs, hcount]
  | some held =>
      have hcount := Stack.count_ne_zero hs
      simp [Stack.places, Stack.holds, Stack.isVacant, Stack.shortfall, hs, hcount]

theorem room_eq_places (inventory : Inventory) (item : Item) :
    inventory.room item = inventory.places item := by
  obtain ⟨slots⟩ := inventory
  rw [room, places]
  dsimp only
  induction slots with
  | nil => simp
  | cons s rest ih =>
      rw [List.map_cons, List.sum_cons, ← ih, places_eq_shortfall, List.filter_cons,
        List.countP_cons, Nat.add_mul]
      cases s.holds item <;> cases s.isVacant <;> simp <;> omega

theorem firstFit_of_add? (h : inventory.add? item = some inventory') :
    FirstFit item inventory inventory' := by
  obtain ⟨index, s, t, hslot, hs, hadd, _, _, hnext⟩ := stored_of_add? h
  exact ⟨index, s, t, hslot, hs, hadd, hnext⟩

theorem add?_of_firstFit (h : FirstFit item inventory inventory') :
    inventory.add? item = some inventory' := by
  obtain ⟨index, s, t, hslot, hs, hadd, rfl⟩ := h
  have hstores := inventory.stores item
  rw [Stores, hslot] at hstores
  obtain ⟨s', t', hs', hadd', _, _, hnext⟩ := hstores
  rw [hs, Option.some.injEq] at hs'
  subst hs'
  rw [hadd, Option.some.injEq] at hadd'
  rw [hnext, hadd']

end Inventory

/-- The room in the target decides the amount of a slot in use. -/
theorem Pours.amount_eq {left : Option Nat} {s : Stack} {item : Item} {target target' : Inventory}
    {amount : Amount} (h : Pours left s target amount target') (hs : s.held? = some item) :
    amount = .of s.count.toNat (target.room item) left := by
  cases h with
  | vacant hnone =>
      rw [hs] at hnone
      cases hnone
  | held hheld hamount _ =>
      rw [hs] at hheld
      cases hheld
      exact hamount

theorem PoursAll.of_cons {left : Option Nat} {s : Stack} {rest slots' : List Stack}
    {target target' : Inventory} {amounts : List Amount}
    (h : PoursAll left (s :: rest) target amounts slots' target') :
    ∃ amount later mid rest', amounts = amount :: later ∧ Pours left s target amount mid ∧
      PoursAll (left.map (· - amount.moved)) rest mid later rest' target' := by
  cases h with
  | cons hpours _ hlater => exact ⟨_, _, _, _, rfl, hpours, hlater⟩

namespace Amount

/-- A unit is lost where the room ends first, but not where it ends together with the limit. -/
example : of 3 2 (some 3) = ⟨2, 1⟩ ∧ of 3 2 (some 2) = ⟨2, 0⟩ := ⟨rfl, rfl⟩

variable {left : Option Nat}

theorem of_zero (room : Nat) (left : Option Nat) : of 0 room left = ⟨0, 0⟩ := by
  simp [of]

theorem of_spent (count room : Nat) : of count room (some 0) = ⟨0, 0⟩ := by
  simp [of, capped]

theorem of_full (h : left = some 0 → False) (count : Nat) : of (count + 1) 0 left = ⟨0, 1⟩ := by
  cases left with
  | none => simp [of, capped]
  | some l =>
      have hl : 0 < l := Nat.pos_of_ne_zero fun h0 => h (congrArg some h0)
      simp [of, capped, hl]

theorem of_succ (h : left = some 0 → False) (count room : Nat) :
    of (count + 1) (room + 1) left =
      ⟨(of count room (left.map (· - 1))).moved + 1, (of count room (left.map (· - 1))).lost⟩ := by
  cases left with
  | none => simp [of, capped]
  | some l =>
      have hl : l ≠ 0 := fun h0 => h (congrArg some h0)
      obtain ⟨later, rfl⟩ := Nat.exists_eq_succ_of_ne_zero hl
      simp [of, capped]

theorem lost_le_one (count room : Nat) (left : Option Nat) : (of count room left).lost ≤ 1 := by
  rw [of]
  dsimp only
  split
  · exact Nat.le_refl 1
  · exact Nat.zero_le 1

theorem moved_le {l : Nat} (h : l ∈ left) (count room : Nat) : (of count room left).moved ≤ l := by
  cases h
  rw [of, capped]
  dsimp only [Option.elim]
  omega

/-- Where the limit and the room end together, nothing is lost. -/
theorem lost_of_moved_eq {l : Nat} (h : l ∈ left) {count room : Nat}
    (hmoved : (of count room left).moved = l) : (of count room left).lost = 0 := by
  cases h
  rw [of, capped] at hmoved
  dsimp only [Option.elim] at hmoved
  have hroom : ¬ room < l := by omega
  simp [of, hroom]

end Amount

namespace Stack

/-- Pouring units of an item out, as long as it lasts, gives their amount away. -/
theorem pourUnits_amount (item : Item) (n : Nat) (quota : Option Nat) (target : Inventory) :
    ∃ amount, amount = Amount.of n (target.places item) quota ∧
      (pourUnits item n quota target).1 + amount.moved + amount.lost = n ∧
      (pourUnits item n quota target).2.1 = quota.map (· - amount.moved) ∧
      target.Stows item amount.moved (pourUnits item n quota target).2.2 := by
  fun_induction pourUnits item n quota target with
  | case1 quota target =>
      refine ⟨⟨0, 0⟩, (Amount.of_zero _ quota).symm, rfl, ?_, .zero target⟩
      cases quota <;> rfl
  | case2 n target =>
      exact ⟨⟨0, 0⟩, (Amount.of_spent _ _).symm, rfl, rfl, .zero target⟩
  | case3 n quota target hquota target' hadd ih =>
      obtain ⟨amount, hamount, hunits, hleft, hstows⟩ := ih
      have hfirst := Inventory.firstFit_of_add? hadd
      rw [← Inventory.places_add? hadd, Amount.of_succ hquota, ← hamount]
      refine ⟨_, rfl, ?_, ?_, .succ hfirst hstows⟩
      · dsimp only
        omega
      · rw [hleft, Option.map_map]
        congr 1
        funext l
        simp only [Function.comp_apply]
        omega
  | case4 n quota target hquota hadd =>
      have hfull : target.places item = 0 := by
        apply Nat.eq_zero_of_not_pos
        intro hpos
        rw [← Inventory.add?_isSome_iff_places, hadd] at hpos
        cases hpos
      rw [hfull, Amount.of_full hquota]
      refine ⟨_, rfl, rfl, ?_, .zero target⟩
      cases quota <;> rfl

theorem pour_of_vacant {s : Stack} (h : s.held? = none) (left : Option Nat) (target : Inventory) :
    s.pour left target = ⟨s, left, target⟩ := by
  cases s with
  | fresh => rfl
  | used held n =>
      have hn : n = 0 := (held?_eq_none_iff _).1 h
      subst hn
      rfl

/-- A slot gives its amount, and keeps the rest. -/
theorem pour_pours (s : Stack) (left : Option Nat) (target : Inventory) :
    ∃ amount, Pours left s target amount (s.pour left target).target ∧
      amount.moved + amount.lost ≤ s.count.toNat ∧
      (s.pour left target).stack = s.lowered (amount.moved + amount.lost) ∧
      (s.pour left target).quota = left.map (· - amount.moved) := by
  cases hs : s.held? with
  | none =>
      rw [pour_of_vacant hs]
      refine ⟨⟨0, 0⟩, .vacant hs, Nat.zero_le _, (lowered_zero s).symm, ?_⟩
      cases left <;> rfl
  | some item =>
      obtain ⟨amount, hamount, hunits, hleft, hstows⟩ :=
        pourUnits_amount item s.count.toNat left target
      rw [← Inventory.room_eq_places] at hamount
      have hkept : s.count.toNat - (amount.moved + amount.lost) =
          (pourUnits item s.count.toNat left target).1 := by omega
      refine ⟨amount, ?_, by omega, ?_, ?_⟩
      · apply Pours.held hs hamount
        rwa [used_of_held hs]
      · rw [used_of_held hs, lowered, hkept]
        rfl
      · rw [used_of_held hs]
        exact hleft

end Stack

namespace Inventory

theorem pourAll_pours (slots : List Stack) (left : Option Nat) (target : Inventory) :
    ∃ amounts, PoursAll left slots target amounts (pourAll slots left target).1
      (pourAll slots left target).2 := by
  induction slots generalizing left target with
  | nil => exact ⟨[], .nil left target⟩
  | cons s rest ih =>
      obtain ⟨amount, hpours, hle, hstack, hleft⟩ := s.pour_pours left target
      obtain ⟨amounts, hlater⟩ := ih (s.pour left target).quota (s.pour left target).target
      refine ⟨amount :: amounts, ?_⟩
      rw [pourAll, hstack]
      rw [hleft] at hlater ⊢
      exact .cons hpours hle hlater

variable {left : Option Nat} {slots slots' : List Stack} {target target' : Inventory}
  {amounts : List Amount}

theorem pours_bounds {s : Stack} {amount : Amount} (h : Pours left s target amount target') :
    amount.lost ≤ 1 ∧ (∀ l ∈ left, amount.moved ≤ l) ∧
      ∀ l ∈ left, amount.moved = l → amount.lost = 0 := by
  cases h with
  | vacant => exact ⟨Nat.zero_le 1, fun _ _ => Nat.zero_le _, fun _ _ _ => rfl⟩
  | held _ hamount _ =>
      rw [hamount]
      exact ⟨Amount.lost_le_one _ _ left, fun _ hl => Amount.moved_le hl _ _,
        fun _ hl hmoved => Amount.lost_of_moved_eq hl hmoved⟩

/-- The units that some amounts have moved together. -/
def movedAll (amounts : List Amount) : Nat :=
  (amounts.map Amount.moved).sum

theorem lost_le_one_of_poursAll (h : PoursAll left slots target amounts slots' target') :
    ∀ amount ∈ amounts, amount.lost ≤ 1 := by
  induction h with
  | nil => exact nofun
  | cons hpours _ _ ih => exact List.forall_mem_cons.2 ⟨(pours_bounds hpours).1, ih⟩

theorem movedAll_le_of_poursAll (h : PoursAll left slots target amounts slots' target') :
    ∀ l ∈ left, movedAll amounts ≤ l := by
  induction h with
  | nil => exact fun _ _ => Nat.zero_le _
  | @cons left _ _ _ _ _ _ amount amounts hpours _ _ ih =>
      intro l hl
      have hfirst := (pours_bounds hpours).2.1 l hl
      have hlater := ih (l - amount.moved) (Option.mem_map_of_mem _ hl)
      rw [movedAll, List.map_cons, List.sum_cons]
      rw [movedAll] at hlater
      omega

/-- From the slot on that reaches the limit, nothing is lost. -/
theorem lost_eq_zero_of_poursAll (h : PoursAll left slots target amounts slots' target') {l k : Nat}
    {amount : Amount} (hl : l ∈ left) (hk : amounts[k]? = some amount)
    (hmoved : movedAll (amounts.take (k + 1)) = l) : amount.lost = 0 := by
  induction h generalizing l k with
  | nil => cases hk
  | @cons left _ _ _ _ _ _ first amounts hpours _ _ ih =>
      rw [List.take_succ_cons, movedAll, List.map_cons, List.sum_cons] at hmoved
      cases k with
      | zero =>
          cases hk
          exact (pours_bounds hpours).2.2 l hl hmoved
      | succ k =>
          apply ih (Option.mem_map_of_mem _ hl) hk
          rw [movedAll]
          omega

/-- A transfer takes the slots of the source in their order. Each gives as many units as it
has, the target as the slots before have left it has room for, and the limit leaves; all of
them go into the first slot that accepts them; and one unit more is lost exactly if neither
the units nor the limit end with the room. So it moves no more than its limit and loses at
most one unit per slot, none once it reaches its limit; and it tells whether the source ends up
without units. -/
theorem transfer_pours (source target : Inventory) (limit : Option Nat) :
    ∃ amounts,
      PoursAll limit source.slots target amounts (source.transfer target limit).source.slots
        (source.transfer target limit).target ∧
      (∀ l ∈ limit, movedAll amounts ≤ l) ∧
      (∀ amount ∈ amounts, amount.lost ≤ 1) ∧
      (∀ l ∈ limit, ∀ (k : Nat) (amount : Amount), amounts[k]? = some amount →
        movedAll (amounts.take (k + 1)) = l → amount.lost = 0) ∧
      ((source.transfer target limit).isComplete ↔
        (source.transfer target limit).source.units = []) := by
  obtain ⟨amounts, h⟩ := pourAll_pours source.slots limit target
  exact ⟨amounts, h, movedAll_le_of_poursAll h, lost_le_one_of_poursAll h,
    fun _ hl _ _ hk hmoved => lost_eq_zero_of_poursAll h hl hk hmoved, isEmpty_iff _⟩

end Inventory

namespace Brim

def source : Inventory :=
  ⟨[.used (.ofKind "stone") 3, .used (.ofKind "ash") 2]⟩

/-- There is room for two stones, by the limit that was adopted, and for no ash. -/
def target : Inventory :=
  ⟨[.used ((Item.ofKind "stone").withLimit 4) 2]⟩

/-- The limit ends with the room, so that the third stone is not lost. -/
theorem brim_pours :
    ∃ amounts,
      PoursAll (some 2) source.slots target amounts
        (source.transfer target (some 2)).source.slots (source.transfer target (some 2)).target ∧
      amounts = [⟨2, 0⟩, ⟨0, 0⟩] ∧ Inventory.movedAll amounts ≤ 2 ∧
      (source.transfer target (some 2)).isComplete = false := by
  obtain ⟨amounts, h, hlimit, _⟩ := Inventory.transfer_pours source target (some 2)
  refine ⟨amounts, h, ?_, hlimit 2 rfl, rfl⟩
  obtain ⟨stone, later, mid, _, rfl, hstone, hlater⟩ := h.of_cons
  obtain rfl := hstone.amount_eq rfl
  obtain ⟨ash, none, last, _, rfl, hash, hnone⟩ := hlater.of_cons
  obtain rfl := hash.amount_eq rfl
  cases hnone
  exact congrArg (fun amount => [⟨2, 0⟩, amount]) (Amount.of_spent 2 _)

end Brim
end ChestMachine
