import ChestMachine.Proofs.Builtin.Keys
import ChestMachine.Proofs.Filling
import ChestMachine.Proofs.Places
import ChestMachine.Proofs.Pulling

/-!
Fetching from end to end. Main statement: a fetch faults for one of five reasons, the first
that applies; where none does, exactly the entry under the key has left the store, one more
key is in the key box, and the units of the entry have gone into the item box or are counted
in a warning.
-/
namespace ChestMachine
namespace Builtin

variable {arguments : Vector Item 2} {context : Context} {items keys entry : Inventory}
  {key : Item}

/-- Why a fetch stops, if it does: the first of these reasons that applies. -/
def fetchCause? (arguments : Vector Item 2) (context : Context) : Option Cause :=
  match (StoreCall.itemBox arguments).contents?, (StoreCall.keyBox arguments).contents? with
  | none, _ => some (.notABox (.argument 0) (StoreCall.itemBox arguments).text)
  | some _, none => some (.notABox (.argument 1) (StoreCall.keyBox arguments).text)
  | some _, some keys =>
      match keys.units.head? with
      | none => some (.missingOperand .key)
      | some key =>
          match context.store.find? key, keys.add? key with
          | none, _ => some (.keyNotFound key.text)
          | some _, none => some (.containerFull key.text)
          | some _, some _ => none

/-- A fetch that goes through. What it gives back, and the context after it, are told from the
boxes that it was given, the first key and the entry under it. -/
structure Fetches (arguments : Vector Item 2) (context : Context) (items keys entry : Inventory)
    (key : Item) (back twice : Inventory) (lost : List Item) (after : Context) : Prop where
  itemBox : (StoreCall.itemBox arguments).contents? = some items
  keyBox : (StoreCall.keyBox arguments).contents? = some keys
  first : keys.units.head? = some key
  found : context.store.find? key = some entry
  returns : fetch arguments context = .ok [.box back, .box twice] after
  store : ∃ front other behind, other == key ∧
    context.store.entries = front ++ (other, entry) :: behind ∧
    after.store.entries = front ++ behind
  countOf_keys : ∀ x, twice.countOf x = keys.countOf x + if key == x then 1 else 0
  countOf_items : ∀ x, back.countOf x + lost.countP (· == x) = items.countOf x + entry.countOf x
  offers : ∃ taken, Inventory.Offers items entry.units taken lost back
  warnings : after.warnings = context.warnings ++
    if 0 < lost.length then [.itemBoxOverflowed key.text lost.length] else []
  frame : after = { context with store := after.store, warnings := after.warnings }

/-- How a fetch ends that has this reason to stop, or none. -/
def FetchEnds (arguments : Vector Item 2) (context : Context) : Option Cause → Prop
  | some cause => ∃ after, fetch arguments context = .error ⟨Opcode.get.name, cause⟩ after
  | none => ∃ items keys entry key back twice lost after,
      Fetches arguments context items keys entry key back twice lost after

theorem fetch_of_operands_error {fault : Fault}
    (h : StoreCall.operandsOf Opcode.get.name (StoreCall.itemBox arguments)
      (StoreCall.keyBox arguments) = .error fault)
    (context : Context) : fetch arguments context = .error fault context := by
  have hoperands : (StoreCall.fetch arguments).operands = .error fault := h
  exact StoreCall.perform_of_error hoperands

section Operands

variable {rest : Inventory} (hitems : (StoreCall.itemBox arguments).contents? = some items)
  (hkeys : (StoreCall.keyBox arguments).contents? = some keys)
  (hkey : keys.pull? = some (key, rest))
include hitems hkeys hkey

theorem fetch_eq_result (context : Context) :
    fetch arguments context =
      (StoreCall.endFetch ⟨items, key, rest⟩ (context.store.find? key)).result key context := by
  have hread : StoreCall.operandsOf Opcode.get.name (StoreCall.itemBox arguments)
      (StoreCall.keyBox arguments) = .ok ⟨items, key, rest⟩ := by
    simp only [StoreCall.operandsOf, hitems, hkeys, hkey]
  have hoperands : (StoreCall.fetch arguments).operands = .ok ⟨items, key, rest⟩ := hread
  exact StoreCall.fetch_of_operands hoperands

theorem fetches_of_found {twice : Inventory} (hentry : context.store.find? key = some entry)
    (htwice : rest.addAll? [key, key] = some twice) :
    ∃ back lost after, Fetches arguments context items keys entry key back twice lost after := by
  have hunits := Inventory.units_of_pull? hkey
  have hreturns := fetch_eq_result hitems hkeys hkey context
  simp only [hentry, StoreCall.endFetch, htwice, StoreCall.Ending.result, StoreCall.Ending.after,
    Inventory.refused_deliver] at hreturns
  refine ⟨items.fill entry.units, Inventory.refusals entry.units items, _, hitems, hkeys, ?_,
    hentry, hreturns, ItemMap.entries_erase_of_find? hentry,
    Inventory.countOf_addAll?_pair hkey htwice, ?_, Inventory.offers_fill entry.units items, rfl,
    rfl⟩
  · rw [hunits]
    rfl
  · intro x
    rw [Inventory.countOf_fill, ← Inventory.countOf_eq_countP]

end Operands

theorem fetchEnds (hsound : ∀ keys, (StoreCall.keyBox arguments).contents? = some keys → keys.Sound)
    (context : Context) : FetchEnds arguments context (fetchCause? arguments context) := by
  fun_cases fetchCause? arguments context with
  | case1 hitems =>
      refine ⟨context, fetch_of_operands_error ?_ context⟩
      simp only [StoreCall.operandsOf, hitems]
  | case2 items hkeys hitems =>
      refine ⟨context, fetch_of_operands_error ?_ context⟩
      simp only [StoreCall.operandsOf, hitems, hkeys]
  | case3 items keys hkeys hitems hnone =>
      refine ⟨context, fetch_of_operands_error ?_ context⟩
      have hpull : keys.pull? = none := by
        rwa [Inventory.pull?_eq_none_iff, ← List.head?_eq_none_iff]
      simp only [StoreCall.operandsOf, hitems, hkeys, hpull]
  | case4 items keys hkeys hitems key hkey hentry =>
      obtain ⟨rest, hpull⟩ := Inventory.exists_pull?_of_head? hkey
      rw [FetchEnds, fetch_eq_result hitems hkeys hpull, hentry]
      exact ⟨_, rfl⟩
  | case5 items keys hkeys hitems key hkey entry hfull hentry =>
      obtain ⟨rest, hpull⟩ := Inventory.exists_pull?_of_head? hkey
      have hnone : rest.addAll? [key, key] = none := by
        have hpair := Inventory.addAll?_pair_isSome_iff (hsound keys hkeys) hpull
        rw [hfull, Option.isSome_none] at hpair
        simpa using hpair
      rw [FetchEnds, fetch_eq_result hitems hkeys hpull, hentry]
      simp only [StoreCall.endFetch, hnone]
      exact ⟨_, rfl⟩
  | case6 items keys hkeys hitems key hkey entry more hroom hentry =>
      obtain ⟨rest, hpull⟩ := Inventory.exists_pull?_of_head? hkey
      have hpair := Inventory.addAll?_pair_isSome_iff (hsound keys hkeys) hpull
      have hfits := hpair.2 (Option.isSome_of_eq_some hroom)
      obtain ⟨twice, htwice⟩ := Option.isSome_iff_exists.1 hfits
      obtain ⟨back, lost, after, hfetches⟩ := fetches_of_found hitems hkeys hpull hentry htwice
      exact ⟨items, keys, entry, key, back, twice, lost, after, hfetches⟩

/-- A fetch faults for the first reason that applies, and goes through where there is none. -/
theorem fetch_outcome
    (hsound : ∀ keys, (StoreCall.keyBox arguments).contents? = some keys → keys.Sound)
    (context : Context) :
    (∀ fault, (∃ after, fetch arguments context = .error fault after) ↔
      ∃ cause, fetchCause? arguments context = some cause ∧
        fault = ⟨Opcode.get.name, cause⟩) ∧
    (fetchCause? arguments context = none →
      ∃ items keys entry key back twice lost after,
        Fetches arguments context items keys entry key back twice lost after) := by
  have hends := fetchEnds hsound context
  cases hcause : fetchCause? arguments context with
  | none =>
      rw [hcause] at hends
      refine ⟨?_, fun _ => hends⟩
      obtain ⟨_, _, _, _, _, _, _, _, hfetches⟩ := hends
      intro fault
      rw [hfetches.returns]
      constructor
      · rintro ⟨_, hfault⟩
        cases hfault
      · rintro ⟨_, hcause, _⟩
        cases hcause
  | some cause =>
      rw [hcause] at hends
      obtain ⟨after, herror⟩ := hends
      refine ⟨?_, nofun⟩
      intro fault
      rw [herror]
      constructor
      · rintro ⟨_, hfault⟩
        cases hfault
        exact ⟨cause, rfl, rfl⟩
      · rintro ⟨_, hcause, rfl⟩
        cases hcause
        exact ⟨after, rfl⟩

end Builtin

namespace Builtin.Spill

def key : Item := .paper "ore"

/-- The item box has room for one more unit of coal, the entry has three. -/
def arguments : Vector Item 2 :=
  #v[.box ⟨[.used ((Item.ofKind "coal").withLimit 2) 1]⟩, .box ⟨[.fresh, .used key 1]⟩]

def context : Context :=
  { Context.ofConfig .standard with
    store := ItemMap.empty.insert key ⟨[.used (.ofKind "coal") 3]⟩ }

theorem sound : ∀ keys, (StoreCall.keyBox arguments).contents? = some keys → keys.Sound := by
  intro keys hkeys
  cases hkeys
  rfl

/-- Two units of coal are lost, and there are two keys. -/
theorem spill_outcome :
    (∀ keys, (StoreCall.keyBox arguments).contents? = some keys → keys.Sound) ∧
    (∃ items keys entry key back twice lost after,
      Fetches arguments context items keys entry key back twice lost after) ∧
    fetch arguments context =
      .ok [.box ⟨[.used ((Item.ofKind "coal").withLimit 2) 2]⟩, .box ⟨[.used key 2, .used key 0]⟩]
        { context with store := .empty, warnings := [.itemBoxOverflowed key.text 2] } :=
  ⟨sound, (fetch_outcome sound context).2 rfl, rfl⟩

end Builtin.Spill
end ChestMachine
