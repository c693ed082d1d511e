import ChestMachine.Builtin
import ChestMachine.Proofs.Effects

/-!
Contexts in which stored inventories and furnace outputs obey a rule. Main
statements: what is looked up obeys the rule, and the effects on the store
preserve it.
-/
namespace ChestMachine
namespace ItemMap

variable {β : Type}

/-- A property of all values of a map. -/
def All (P : β → Prop) (map : ItemMap β) : Prop :=
  ∀ entry ∈ map.entries, P entry.2

variable {P : β → Prop} {map : ItemMap β} {key : Item} {value : β}

theorem all_find? (h : map.All P) (hfind : map.find? key = some value) : P value := by
  obtain ⟨entry, hentry, rfl⟩ := Option.map_eq_some_iff.1 hfind
  exact h entry (List.mem_of_find?_eq_some hentry)

theorem all_erase (h : map.All P) (key : Item) : (map.erase key).All P := by
  intro entry hm
  exact h entry (List.mem_filter.1 hm).1

theorem all_insert (h : map.All P) (hv : P value) (key : Item) :
    (map.insert key value).All P := by
  intro entry hm
  unfold insert at hm
  split at hm
  · obtain ⟨old, ho, rfl⟩ := List.mem_map.1 hm
    split
    · exact hv
    · exact h old ho
  · cases List.mem_append.1 hm with
    | inl ho => exact h entry ho
    | inr hn =>
        rw [List.mem_singleton.1 hn]
        exact hv

end ItemMap

/-- What a function may hand out from its context obeys the rule. -/
structure Context.Obeys (rule : Item → Bool) (context : Context) : Prop where
  store : context.store.All fun entry => entry.obeys rule
  furnace : context.furnace.All fun product => product.obeys rule

namespace Context

variable {rule : Item → Bool} {context : Context}

def withStore (context : Context) (store : Store) : Context :=
  { context with store }

/-- The context after a warning that is given under a condition. -/
def warnedIf (context : Context) (condition : Prop) [Decidable condition] (warning : Warning) :
    Context :=
  { context with
    warnings := context.warnings ++ if condition then [warning] else [] }

theorem warnedIf_of_not {condition : Prop} [Decidable condition] (h : ¬ condition)
    (warning : Warning) : context.warnedIf condition warning = context := by
  simp only [warnedIf, if_neg h, List.append_nil]

theorem warnings_warnedIf_iff {condition : Prop} [Decidable condition] {warning : Warning} :
    (context.warnedIf condition warning).warnings = context.warnings ↔ ¬ condition := by
  by_cases h : condition <;> simp [warnedIf, h]

theorem obeys_warnedIf (h : context.Obeys rule) (condition : Prop) [Decidable condition]
    (warning : Warning) : (context.warnedIf condition warning).Obeys rule :=
  ⟨h.store, h.furnace⟩

theorem obeys_withStore (h : context.Obeys rule) {store : Store}
    (hs : store.All fun entry => entry.obeys rule) : (context.withStore store).Obeys rule :=
  ⟨hs, h.furnace⟩

end Context

namespace Builtin

variable {context : Context}

/-- A warning does not hold a function up. -/
theorem warnIf_eq {α : Type} (condition : Prop) [Decidable condition] (warning : Warning)
    (value : α) :
    (if condition then do
        warn warning
        pure value
      else pure value : ContextM α) context = .ok value (context.warnedIf condition warning) := by
  by_cases h : condition
  · simp only [h, if_true, Context.warnedIf]
    rfl
  · simp only [h, if_false, Context.warnedIf, List.append_nil]
    rfl

theorem takeEntry_eq (operation : String) (key : Item) (context : Context) :
    takeEntry operation key context =
      match context.store.find? key with
      | some entry => .ok entry (context.withStore (context.store.erase key))
      | none => .error ⟨operation, .keyNotFound key.text⟩ context := by
  simp only [takeEntry, get_bind]
  cases context.store.find? key <;> rfl

theorem takeEntry_eq_ok_iff {operation : String} {key : Item} {entry : Inventory}
    {after : Context} :
    takeEntry operation key context = .ok entry after ↔
      context.store.find? key = some entry ∧
        after = context.withStore (context.store.erase key) := by
  rw [takeEntry_eq]
  cases context.store.find? key with
  | none => simp
  | some found => simp [eq_comm]

theorem faultsAs_takeEntry {operation : String} {key : Item} {P : Fault → Prop}
    (h : P ⟨operation, .keyNotFound key.text⟩) :
    FaultsAs P (takeEntry operation key) context := by
  intro fault after he
  rw [takeEntry_eq] at he
  split at he
  · cases he
  · cases he
    exact h

/-- What units that go under a key are added to. -/
def entryOf (context : Context) (key : Item) : Inventory :=
  (context.store.find? key).getD .chest

theorem storeUnder_eq (key : Item) (units : Inventory) (context : Context) :
    storeUnder key units context =
      .ok (units.transfer (entryOf context key) none)
        (context.withStore
          (context.store.insert key (units.transfer (entryOf context key) none).target)) := rfl

theorem obeys_entryOf {rule : Item → Bool} (h : context.Obeys rule) (key : Item) :
    (entryOf context key).obeys rule := by
  unfold entryOf
  cases hfind : context.store.find? key with
  | none => exact Inventory.obeys_empty _
  | some entry => exact ItemMap.all_find? (P := fun entry => entry.obeys rule) h.store hfind

end Builtin
end ChestMachine
