import ChestMachine.Proofs.Context

/-!
Fetching and depositing. Main statements: when they succeed and with what; that
what they return obeys every rule that closed boxes obey; and that only a key box
without room for its second key makes them find a container full.
-/
namespace ChestMachine
namespace Builtin

variable {arguments : Vector Item 2} {context after : Context} {results : List Item}
  {rule : Item → Bool}

theorem fetch_eq_ok_iff :
    fetch arguments context = .ok results after ↔
      ∃ items keys key rest entry once twice,
        (arguments.get 0).contents? = some items ∧ (arguments.get 1).contents? = some keys ∧
        keys.pull? = some (key, rest) ∧ context.store.find? key = some entry ∧
        rest.add? key = some once ∧ once.add? key = some twice ∧
        results = [.box (items.fill entry.units), .box twice] ∧
        after = (context.withStore (context.store.erase key)).warnedIf
          (0 < (Inventory.deliver entry.units items).refused)
          (.itemBoxOverflowed key.text (Inventory.deliver entry.units items).refused) := by
  simp only [fetch, openBox_eq_orThrow, pullOrFault_eq_orThrow, addOrFault_eq_orThrow,
    bind_eq_ok_iff, orThrow_eq_ok_iff, takeEntry_eq_ok_iff, gt_iff_lt, warnIf_eq]
  constructor
  · rintro ⟨items, _, ⟨hitems, rfl⟩, keys, _, ⟨hkeys, rfl⟩, ⟨key, rest⟩, _, ⟨hkey, rfl⟩, entry, _,
      ⟨hentry, rfl⟩, once, _, ⟨honce, rfl⟩, twice, _, ⟨htwice, rfl⟩, heq⟩
    simp only [Inventory.drain, Inventory.fst_pullAll, EStateM.Result.ok.injEq] at heq
    exact ⟨items, keys, key, rest, entry, once, twice, hitems, hkeys, hkey, hentry, honce,
      htwice, heq.1.symm, heq.2.symm⟩
  · rintro ⟨items, keys, key, rest, entry, once, twice, hitems, hkeys, hkey, hentry, honce,
      htwice, rfl, rfl⟩
    refine ⟨items, _, ⟨hitems, rfl⟩, keys, _, ⟨hkeys, rfl⟩, (key, rest), _, ⟨hkey, rfl⟩, entry, _,
      ⟨hentry, rfl⟩, once, _, ⟨honce, rfl⟩, twice, _, ⟨htwice, rfl⟩, ?_⟩
    simp only [Inventory.drain, Inventory.fst_pullAll]
    rfl

theorem deposit_eq_ok_iff :
    deposit arguments context = .ok results after ↔
      ∃ items keys key rest,
        (arguments.get 0).contents? = some items ∧ (arguments.get 1).contents? = some keys ∧
        keys.pull? = some (key, rest) ∧
        results = [.box (items.transfer (entryOf context key) none).source, .box rest] ∧
        after = (context.withStore (context.store.insert key
          (items.transfer (entryOf context key) none).target)).warnedIf
            (!(items.transfer (entryOf context key) none).isComplete)
            (.entryFull key.text
              (items.transfer (entryOf context key) none).source.totalCount) := by
  simp only [deposit, openBox_eq_orThrow, pullOrFault_eq_orThrow, bind_eq_ok_iff,
    orThrow_eq_ok_iff, storeUnder_eq, warnIf_eq]
  constructor
  · rintro ⟨items, _, ⟨hitems, rfl⟩, keys, _, ⟨hkeys, rfl⟩, ⟨key, rest⟩, _, ⟨hkey, rfl⟩, _, _,
      hstored, heq⟩
    cases hstored
    simp only [EStateM.Result.ok.injEq] at heq
    exact ⟨items, keys, key, rest, hitems, hkeys, hkey, heq.1.symm, heq.2.symm⟩
  · rintro ⟨items, keys, key, rest, hitems, hkeys, hkey, rfl, rfl⟩
    exact ⟨items, _, ⟨hitems, rfl⟩, keys, _, ⟨hkeys, rfl⟩, (key, rest), _, ⟨hkey, rfl⟩, _, _,
      rfl, rfl⟩

section Rule

variable (hbox : ∀ contents, rule (.box contents))
include hbox

theorem obeys_boxes {first second : Inventory} (h₁ : first.obeys rule) (h₂ : second.obeys rule) :
    ∀ result ∈ [Item.box first, Item.box second], result.obeys rule := by
  intro result hr
  simp only [List.mem_cons, List.not_mem_nil, or_false] at hr
  cases hr with
  | inl h =>
      rw [h]
      exact Item.obeys_box h₁ (hbox first)
  | inr h =>
      rw [h]
      exact Item.obeys_box h₂ (hbox second)

theorem obeys_fetch (ha : ∀ argument ∈ arguments, argument.obeys rule)
    (hc : context.Obeys rule) (h : fetch arguments context = .ok results after) :
    (∀ result ∈ results, result.obeys rule) ∧ after.Obeys rule := by
  obtain ⟨items, keys, key, rest, entry, once, twice, hitems, hkeys, hkey, hentry, honce, htwice,
    rfl, rfl⟩ := fetch_eq_ok_iff.1 h
  have hitems' : items.obeys rule :=
    Item.obeys_contents (ha _ (Vector.getElem_mem _)) hitems
  have hkeys' : keys.obeys rule :=
    Item.obeys_contents (ha _ (Vector.getElem_mem _)) hkeys
  obtain ⟨⟨hk, _⟩, hrest⟩ := Inventory.obeys_pull? hkeys' hkey
  have hentry' : entry.obeys rule :=
    ItemMap.all_find? (P := fun entry => entry.obeys rule) hc.store hentry
  refine ⟨?_, ?_⟩
  · apply obeys_boxes hbox
    · exact Inventory.obeys_fill hitems' fun unit hu => (Inventory.obeys_units hentry' unit hu).1
    · exact Inventory.obeys_add? (Inventory.obeys_add? hrest hk honce) hk htwice
  · apply Context.obeys_warnedIf
    exact Context.obeys_withStore hc (ItemMap.all_erase hc.store key)

theorem obeys_deposit (ha : ∀ argument ∈ arguments, argument.obeys rule)
    (hc : context.Obeys rule) (h : deposit arguments context = .ok results after) :
    (∀ result ∈ results, result.obeys rule) ∧ after.Obeys rule := by
  obtain ⟨items, keys, key, rest, hitems, hkeys, hkey, rfl, rfl⟩ := deposit_eq_ok_iff.1 h
  have hitems' : items.obeys rule :=
    Item.obeys_contents (ha _ (Vector.getElem_mem _)) hitems
  have hkeys' : keys.obeys rule :=
    Item.obeys_contents (ha _ (Vector.getElem_mem _)) hkeys
  have hmoved := Inventory.obeys_transfer hitems' (obeys_entryOf hc key) none
  refine ⟨?_, ?_⟩
  · exact obeys_boxes hbox hmoved.1 (Inventory.obeys_pull? hkeys' hkey).2
  · apply Context.obeys_warnedIf
    exact Context.obeys_withStore hc (ItemMap.all_insert hc.store hmoved.2 key)

end Rule

theorem isBox_of_pair (h₀ : (arguments.get 0).isBox) (h₁ : (arguments.get 1).isBox) :
    ∀ argument ∈ arguments, argument.isBox := by
  intro argument ha
  obtain ⟨i, hi, rfl⟩ := Vector.mem_iff_getElem.1 ha
  match i, hi with
  | 0, _ => exact h₀
  | 1, _ => exact h₁

/-- Fetching takes two boxes and gives two. -/
theorem fetch_boxes (h : fetch arguments context = .ok results after) :
    (∀ argument ∈ arguments, argument.isBox) ∧ results.length = 2 := by
  obtain ⟨items, keys, key, rest, entry, once, twice, hitems, hkeys, _, _, _, _, rfl, _⟩ :=
    fetch_eq_ok_iff.1 h
  exact ⟨isBox_of_pair (Item.isBox_of_contents? hitems) (Item.isBox_of_contents? hkeys), rfl⟩

theorem deposit_boxes (h : deposit arguments context = .ok results after) :
    (∀ argument ∈ arguments, argument.isBox) ∧ results.length = 2 := by
  obtain ⟨items, keys, key, rest, hitems, hkeys, _, rfl, _⟩ := deposit_eq_ok_iff.1 h
  exact ⟨isBox_of_pair (Item.isBox_of_contents? hitems) (Item.isBox_of_contents? hkeys), rfl⟩

/-- The key box takes the key back once, but has no room for the second copy. -/
inductive KeyBoxFull (arguments : Vector Item 2) (key : Item) : Prop where
  | intro (keys rest once : Inventory) :
      (arguments.get 1).contents? = some keys → keys.pull? = some (key, rest) →
      rest.add? key = some once → once.add? key = none → KeyBoxFull arguments key

/-- Fetching finds a container full only when the second copy of the key is refused: the
first one takes the place that the key has left. -/
theorem fetch_full (ha : ∀ argument ∈ arguments, argument.obeys rule) (context : Context) :
    FaultsAs (fun fault => fault.cause.category = .capacity → ∃ key, KeyBoxFull arguments key ∧
      fault = ⟨Opcode.get.name, .containerFull key.text⟩) (fetch arguments) context := by
  simp only [fetch, openBox_eq_orThrow, pullOrFault_eq_orThrow, addOrFault_eq_orThrow]
  refine .orThrow_bind (fun _ => nofun) ?_
  intro items _
  refine .orThrow_bind (fun _ => nofun) ?_
  intro keys hkeys
  refine .orThrow_bind (fun _ => nofun) ?_
  intro (key, rest) hkey
  refine .bind (faultsAs_takeEntry nofun) ?_
  intro entry left _
  have hkeys' : keys.obeys rule :=
    Item.obeys_contents (ha _ (Vector.getElem_mem _)) hkeys
  obtain ⟨once, honce⟩ := Inventory.add?_of_pullWanted? hkeys' hkey
  simp only [honce]
  refine .orThrow_bind nofun ?_
  intro found hfound
  cases hfound
  refine .orThrow_bind ?_ ?_
  · intro htwice _
    exact ⟨key, ⟨keys, rest, once, hkeys, hkey, honce, htwice⟩, rfl⟩
  · intro twice _
    exact .of_ok (warnIf_eq _ _ _)

theorem deposit_full (arguments : Vector Item 2) (context : Context) :
    FaultsAs (·.cause.category ≠ .capacity) (deposit arguments) context := by
  simp only [deposit, openBox_eq_orThrow, pullOrFault_eq_orThrow]
  refine .orThrow_bind (fun _ => nofun) ?_
  intro items _
  refine .orThrow_bind (fun _ => nofun) ?_
  intro keys _
  refine .orThrow_bind (fun _ => nofun) ?_
  intro (key, rest) _
  refine .bind (.of_ok (storeUnder_eq key items context)) ?_
  intro transfer left _
  exact .of_ok (warnIf_eq _ _ _)

end Builtin
end ChestMachine
