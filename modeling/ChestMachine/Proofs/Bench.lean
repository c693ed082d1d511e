import Mathlib.Logic.Relation
import ChestMachine.Proofs.Counting

/-!
A bench of inventories, which any sequence of operations may work on. Main statement: after
every sequence, in every inventory, at any depth and also where a vacant slot only remembers
a box, the slots in use have between one unit and the limit of the item in them, further
units are stored where they are said to be, and all counting keeps within words.
-/
namespace ChestMachine

/-- Inventories side by side, the items that were made, closed or pulled so far, and the units
that pulls have returned. -/
structure Bench where
  inventories : List Inventory
  items : List Item
  pulled : List Item

namespace Bench

def bare : Bench :=
  ⟨[], [], []⟩

def place (bench : Bench) (inventory : Inventory) : Bench :=
  { bench with inventories := bench.inventories ++ [inventory] }

def change (bench : Bench) (index : Nat) (inventory : Inventory) : Bench :=
  { bench with inventories := bench.inventories.set index inventory }

def keep (bench : Bench) (item : Item) : Bench :=
  { bench with items := bench.items ++ [item] }

/-- A unit that was pulled can be used from then on. -/
def take (bench : Bench) (unit : Item) : Bench :=
  { bench.keep unit with pulled := bench.pulled ++ [unit] }

/-- What one operation does to a bench, if it does not refuse or find nothing. Items and
inventories are never used up, as one can work on copies of them. -/
inductive Step (bench : Bench) : Bench → Prop where
  | create (size : Nat) : Step bench (bench.place (.empty size))
  | copy {inventory : Inventory} : inventory ∈ bench.inventories →
      Step bench (bench.place inventory)
  | make (kind label : String) (limit : UInt32) :
      Step bench (bench.keep ((Item.labeled kind label).withLimit limit))
  | restack {item : Item} (limit : UInt32) : item ∈ bench.items →
      Step bench (bench.keep (item.withLimit limit))
  | tag {item : Item} (text : String) : item ∈ bench.items →
      Step bench (bench.keep (item.withTag text))
  | closeBox {inventory : Inventory} : inventory ∈ bench.inventories →
      Step bench (bench.keep (.box inventory))
  | openBox {item : Item} {inventory : Inventory} : item ∈ bench.items →
      item.contents? = some inventory → Step bench (bench.place inventory)
  | add (target : Nat) {inventory inventory' : Inventory} {item : Item} :
      bench.inventories[target]? = some inventory → item ∈ bench.items →
      inventory.add? item = some inventory' → Step bench (bench.change target inventory')
  | pull (source : Nat) {inventory rest : Inventory} {unit : Item} :
      bench.inventories[source]? = some inventory → inventory.pull? = some (unit, rest) →
      Step bench ((bench.change source rest).take unit)
  | pullMatching (source : Nat) (descriptor : Item) {inventory rest : Inventory} {unit : Item} :
      bench.inventories[source]? = some inventory →
      inventory.pullMatching? descriptor = some (unit, rest) →
      Step bench ((bench.change source rest).take unit)
  | transfer (source target : Nat) (limit : Option Nat) {inventory other : Inventory} :
      source ≠ target → bench.inventories[source]? = some inventory →
      bench.inventories[target]? = some other →
      Step bench ((bench.change source (inventory.transfer other limit).source).change target
        (inventory.transfer other limit).target)

/-- Any sequence of operations. -/
abbrev Reaches : Bench → Bench → Prop :=
  Relation.ReflTransGen Step

/-- The inventories on the bench, and those in boxes, whether a slot has units of the box or
only remembers it. -/
inductive Holds (bench : Bench) : Inventory → Prop where
  | placed {inventory : Inventory} : inventory ∈ bench.inventories → Holds bench inventory
  | boxed {item : Item} {inventory : Inventory} : item ∈ bench.items →
      item.contents? = some inventory → Holds bench inventory
  | nested {inventory inner : Inventory} {s : Stack} {item : Item} : Holds bench inventory →
      s ∈ inventory.slots → s.adopted? = some item → item.contents? = some inner →
      Holds bench inner

end Bench

namespace Stack

variable {s t : Stack} {item : Item} {items : List Item}

/-- The slot keeps within its limit, and has adopted one of these items. -/
structure Within (items : List Item) (s : Stack) : Prop where
  limit : s.WithinLimit
  adopted : ∀ item, s.adopted? = some item → item ∈ items

theorem within_fresh (items : List Item) : fresh.Within items :=
  ⟨nofun, nofun⟩

theorem within_add? (hs : s.Within items) (hitem : item ∈ items) (ha : s.accepts item)
    (hadd : s.add? item = some t) : t.Within items := by
  refine ⟨withinLimit_add? ha hadd, ?_⟩
  rw [add?_of_accepts ha, Option.some.injEq] at hadd
  subst hadd
  intro adopted hadopted
  cases hheld : s.held? with
  | none =>
      rw [hheld] at hadopted
      cases hadopted
      exact hitem
  | some held =>
      rw [hheld] at hadopted
      cases hadopted
      exact hs.adopted held (adopted?_of_held hheld)

theorem within_pull? (hs : s.Within items) (hp : s.pull? = some (item, t)) :
    (item ∈ items ∧ 0 < item.limit) ∧ t.Within items := by
  have hheld := held?_of_pull? hp
  have hitem := hs.adopted item (adopted?_of_held hheld)
  refine ⟨⟨hitem, limit_pos_of_held hs.limit hheld⟩, withinLimit_pull? hs.limit hp, ?_⟩
  obtain ⟨_, rfl⟩ := pull?_eq_some_iff.1 hp
  intro adopted hadopted
  cases hadopted
  exact hitem

theorem keeps_within (items : List Item) : Keeps (· ∈ items) (Within items) :=
  ⟨within_add?, within_pull?⟩

end Stack

namespace Bench

/-- All slots keep within their limits and have adopted items of the bench, in its boxes as
well; and all units that were pulled stack. -/
structure Kept (bench : Bench) : Prop where
  placed : ∀ inventory ∈ bench.inventories, inventory.Every (Stack.Within bench.items)
  boxed : ∀ item ∈ bench.items, ∀ inventory, item.contents? = some inventory →
    inventory.Every (Stack.Within bench.items)
  pulled : ∀ unit ∈ bench.pulled, 0 < unit.limit

variable {bench bench' : Bench} {inventory inventory' : Inventory} {item unit : Item} {index : Nat}

theorem every_within_of_subset {items items' : List Item} (h : items ⊆ items')
    (hw : inventory.Every (Stack.Within items)) : inventory.Every (Stack.Within items') :=
  fun s hs => ⟨(hw s hs).limit, fun item hitem => h ((hw s hs).adopted item hitem)⟩

theorem kept_bare : bare.Kept :=
  ⟨nofun, nofun, nofun⟩

theorem kept_place (h : bench.Kept) (hw : inventory.Every (Stack.Within bench.items)) :
    (bench.place inventory).Kept where
  placed := List.forall_mem_append.2 ⟨h.placed, List.forall_mem_singleton.2 hw⟩
  boxed := h.boxed
  pulled := h.pulled

theorem kept_change (h : bench.Kept) (hw : inventory.Every (Stack.Within bench.items))
    (index : Nat) : (bench.change index inventory).Kept := by
  refine ⟨?_, h.boxed, h.pulled⟩
  intro other hother
  rcases List.mem_or_eq_of_mem_set hother with hold | rfl
  · exact h.placed other hold
  · exact hw

theorem kept_keep (h : bench.Kept) (hw : ∀ inventory, item.contents? = some inventory →
    inventory.Every (Stack.Within bench.items)) : (bench.keep item).Kept := by
  have hmore : bench.items ⊆ (bench.keep item).items := List.subset_append_left _ _
  have hboxed := List.forall_mem_append.2 ⟨h.boxed, List.forall_mem_singleton.2 hw⟩
  refine ⟨?_, ?_, h.pulled⟩
  · intro inventory hinventory
    exact every_within_of_subset hmore (h.placed inventory hinventory)
  · intro other hother inventory hcontents
    exact every_within_of_subset hmore (hboxed other hother inventory hcontents)

theorem kept_take (h : bench.Kept) (hunit : unit ∈ bench.items) (hstacks : 0 < unit.limit) :
    (bench.take unit).Kept := by
  have hkeep := kept_keep h (h.boxed unit hunit)
  have hpulled := List.forall_mem_append.2 ⟨h.pulled, List.forall_mem_singleton.2 hstacks⟩
  exact ⟨hkeep.placed, hkeep.boxed, hpulled⟩

theorem kept_pull {wanted : Item → Bool} {rest : Inventory} (h : bench.Kept)
    (hsource : bench.inventories[index]? = some inventory)
    (hp : inventory.pullWanted? wanted = some (unit, rest)) :
    ((bench.change index rest).take unit).Kept := by
  have hw := h.placed inventory (List.mem_of_getElem? hsource)
  obtain ⟨⟨hunit, hstacks⟩, hrest⟩ := Inventory.every_pullWanted? (Stack.keeps_within _) hw hp
  exact kept_take (kept_change h hrest index) hunit hstacks

/-- No operation leads out of the invariant. -/
theorem kept_step (h : bench.Kept) (hstep : Step bench bench') : bench'.Kept := by
  have hkeeps := Stack.keeps_within bench.items
  induction hstep with
  | create size => exact kept_place h (Inventory.every_empty (Stack.within_fresh _) size)
  | copy hinventory => exact kept_place h (h.placed _ hinventory)
  | make kind label limit => exact kept_keep h nofun
  | restack limit hitem =>
      apply kept_keep h
      intro inner hinner
      exact h.boxed _ hitem inner hinner
  | tag text hitem => exact kept_keep h nofun
  | closeBox hinventory =>
      apply kept_keep h
      intro inner hinner
      cases hinner
      exact h.placed _ hinventory
  | openBox hitem hcontents => exact kept_place h (h.boxed _ hitem _ hcontents)
  | add target htarget hitem hadd =>
      have hw := h.placed _ (List.mem_of_getElem? htarget)
      exact kept_change h (Inventory.every_add? hkeeps hw hitem hadd) target
  | pull source hsource hp => exact kept_pull h hsource hp
  | pullMatching source descriptor hsource hp => exact kept_pull h hsource hp
  | transfer source target limit _ hsource htarget =>
      have hw := h.placed _ (List.mem_of_getElem? hsource)
      have hother := h.placed _ (List.mem_of_getElem? htarget)
      obtain ⟨hleft, hmoved⟩ := Inventory.every_transfer hkeeps hw hother limit
      exact kept_change (kept_change h hleft source) hmoved target

theorem kept_reaches (h : bench.Kept) (hr : Reaches bench bench') : bench'.Kept := by
  induction hr with
  | refl => exact h
  | tail _ hstep ih => exact kept_step ih hstep

/-- The invariant reaches every box at any depth. -/
theorem every_within_of_holds (h : bench.Kept) (hh : bench.Holds inventory) :
    inventory.Every (Stack.Within bench.items) := by
  induction hh with
  | placed hplaced => exact h.placed _ hplaced
  | boxed hitem hcontents => exact h.boxed _ hitem _ hcontents
  | nested _ hs hadopted hcontents ih =>
      exact h.boxed _ ((ih _ hs).adopted _ hadopted) _ hcontents

def sizes (bench : Bench) : List Nat :=
  bench.inventories.map Inventory.size

theorem sizes_place (bench : Bench) (inventory : Inventory) :
    bench.sizes <+: (bench.place inventory).sizes := by
  rw [sizes, sizes, place, List.map_append]
  exact List.prefix_append _ _

theorem sizes_change (h : bench.inventories[index]? = some inventory)
    (hsize : inventory'.size = inventory.size) :
    bench.sizes <+: (bench.change index inventory').sizes := by
  have hsame : (bench.change index inventory').sizes = bench.sizes := by
    apply List.ext_getElem?
    intro i
    simp only [sizes, change, List.getElem?_map, List.getElem?_set]
    by_cases hi : index = i
    · subst hi
      obtain ⟨hlt, _⟩ := List.getElem?_eq_some_iff.1 h
      simp only [if_true, if_pos hlt, h, Option.map_some, hsize]
    · simp only [if_neg hi]
  exact ⟨[], (List.append_nil _).trans hsame.symm⟩

/-- Operations place inventories on the bench, but never resize one. -/
theorem sizes_step (h : Step bench bench') : bench.sizes <+: bench'.sizes := by
  induction h with
  | create | copy | openBox => exact sizes_place _ _
  | make | restack | tag | closeBox => exact List.prefix_rfl
  | add target htarget _ hadd => exact sizes_change htarget (Inventory.size_add? hadd)
  | pull source hsource hp => exact sizes_change hsource (Inventory.size_pullWanted? hp)
  | pullMatching source descriptor hsource hp =>
      exact sizes_change hsource (Inventory.size_pullWanted? hp)
  | @transfer source target limit inventory other hne hsource htarget =>
      have hleft := sizes_change hsource (Inventory.size_source_transfer inventory other limit)
      apply hleft.trans
      apply sizes_change _ (Inventory.size_target_transfer inventory other limit)
      rwa [change, List.getElem?_set_ne hne]

theorem sizes_reaches (h : Reaches bench bench') : bench.sizes <+: bench'.sizes := by
  induction h with
  | refl => exact List.prefix_rfl
  | tail _ hstep ih => exact ih.trans (sizes_step hstep)

/-- Inventories that are built by any sequence of operations, and all boxes in them, have
between one unit and the limit of the item in each slot in use; they store a unit where they
say so, and no count leaves its word. Later operations do not resize them, and only units
that stack have been pulled. -/
theorem reaches_counts (h : Reaches bare bench) :
    (∀ inventory, bench.Holds inventory →
      (∀ s ∈ inventory.slots, s.count ≠ 0 →
        ∃ held, s.held? = some held ∧ 1 ≤ s.count ∧ s.count ≤ held.limit) ∧
      (∀ item, inventory.Stores item ∧ inventory.addChecked item = .ok (inventory.add? item)) ∧
      (∀ wanted, inventory.pullChecked wanted = .ok (inventory.pullWanted? wanted)) ∧
      ∀ target limit,
        inventory.transferChecked target limit = .ok (inventory.transfer target limit)) ∧
    (∀ later, Reaches bench later → bench.sizes <+: later.sizes) ∧
    ∀ unit ∈ bench.pulled, 1 ≤ unit.limit := by
  have hkept := kept_reaches kept_bare h
  refine ⟨?_, fun later hlater => sizes_reaches hlater, hkept.pulled⟩
  intro inventory hholds
  refine ⟨?_, ?_, inventory.pullChecked_eq, inventory.transferChecked_eq⟩
  · intro s hs hcount
    have hlimit := (every_within_of_holds hkept hholds s hs).limit
    cases hheld : s.held? with
    | none => exact absurd ((Stack.held?_eq_none_iff s).1 hheld) hcount
    | some held =>
        refine ⟨held, rfl, ?_, hlimit held hheld⟩
        rw [UInt32.le_iff_toNat_le]
        exact Nat.one_le_iff_ne_zero.2 (word_toNat_ne_zero hcount)
  · intro item
    exact ⟨inventory.stores item, inventory.addChecked_eq item⟩

namespace Shelf

def stone : Item :=
  (Item.labeled "stone" "stone").withLimit 1

def box : Item :=
  .box ⟨[.used stone 1]⟩

/-- A stone in a slot, and a slot that remembers a box with one in it. -/
def remembering : Bench :=
  ⟨[⟨[.used stone 1]⟩, ⟨[.used box 0]⟩], [stone, box, box], [box]⟩

theorem reaches_remembering : Reaches bare remembering := by
  have hmake : Reaches bare ⟨[], [stone], []⟩ := .single (.make "stone" "stone" 1)
  have hcreate := (hmake.tail (.create 1)).tail (.create 1)
  have hstone := hcreate.tail (.add 0 rfl List.mem_cons_self rfl)
  have hclose := hstone.tail (.closeBox List.mem_cons_self)
  have hbox := hclose.tail (.add 1 rfl (List.mem_cons_of_mem _ List.mem_cons_self) rfl)
  exact hbox.tail (.pull 1 rfl rfl)

/-- The box that is only remembered counts as well. -/
theorem remembering_counts :
    Reaches bare remembering ∧ remembering.Holds ⟨[.used stone 1]⟩ ∧
      (∃ held, (Stack.used stone 1).held? = some held ∧ 1 ≤ (1 : UInt32) ∧ 1 ≤ held.limit) ∧
      Inventory.Stores ⟨[.used stone 1]⟩ stone ∧
      (∀ later, Reaches remembering later → [1, 1] <+: later.sizes) ∧ 1 ≤ box.limit := by
  obtain ⟨hcounts, hsizes, hpulled⟩ := reaches_counts reaches_remembering
  have hplaced : remembering.Holds ⟨[.used box 0]⟩ :=
    .placed (List.mem_cons_of_mem _ List.mem_cons_self)
  have hnested : remembering.Holds ⟨[.used stone 1]⟩ :=
    .nested hplaced List.mem_cons_self rfl rfl
  obtain ⟨hslots, hstores, _⟩ := hcounts _ hnested
  exact ⟨reaches_remembering, hnested, hslots _ List.mem_cons_self (by decide),
    (hstores stone).1, hsizes, hpulled box List.mem_cons_self⟩

end Shelf
end Bench
end ChestMachine
