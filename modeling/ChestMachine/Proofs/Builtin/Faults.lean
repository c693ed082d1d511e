import ChestMachine.Builtin
import ChestMachine.Proofs.Builtin.Boxes
import ChestMachine.Proofs.Maps

/-!
The context after a fault. Main statement: an opcode that faults leaves its context as it
was, with one exception. Fetching removes the entry before the key goes back into its
box twice; where the box does not take it, the entry is gone.
-/
namespace ChestMachine

namespace Builtin

variable {context after : Context} {fault : Fault} {operation : String}

theorem smeltUnits_eq_error {units : List Item}
    (h : units.mapM (smeltUnit operation) context = .error fault after) : after = context := by
  induction units generalizing fault after with
  | nil => cases h
  | cons unit rest ih =>
      rw [List.mapM_cons, bind_eq_error_iff, smeltUnit_eq_orThrow] at h
      cases h with
      | inl hfirst => exact (orThrow_eq_error_iff.1 hfirst).2.2
      | inr hlater =>
          obtain ⟨product, _, hproduct, hrest⟩ := hlater
          obtain ⟨_, rfl⟩ := orThrow_eq_ok_iff.1 hproduct
          cases bind_eq_error_iff.1 hrest with
          | inl hmany => exact ih hmany
          | inr hlast =>
              obtain ⟨_, _, _, hpure⟩ := hlast
              cases hpure

theorem addAllOrFault_eq_error {items : List Item} {target : Inventory}
    (h : addAllOrFault operation items target context = .error fault after) : after = context := by
  induction items generalizing target with
  | nil => cases h
  | cons item rest ih =>
      rw [addAllOrFault, addOrFault_eq_orThrow, bind_eq_error_iff] at h
      cases h with
      | inl hfirst => exact (orThrow_eq_error_iff.1 hfirst).2.2
      | inr hlater =>
          obtain ⟨next, _, hnext, hrest⟩ := hlater
          obtain ⟨_, rfl⟩ := orThrow_eq_ok_iff.1 hnext
          exact ih hrest

theorem smelt_eq_error {arguments : Vector Item 1}
    (h : smelt arguments context = .error fault after) : after = context := by
  have hall : FaultsWith (fun _ left => left = context) (smelt arguments) context := by
    simp only [smelt, openBox_eq_orThrow]
    refine .orThrow_bind (fun _ => rfl) ?_
    intro items _
    refine .bind (fun _ _ => smeltUnits_eq_error) ?_
    intro products left _
    exact .of_ok (warnIf_eq _ _ _)
  exact hall fault after h

theorem permute_eq_error {arguments : Vector Item 27}
    (h : permute arguments context = .error fault after) : after = context := by
  have hall : FaultsWith (fun _ left => left = context) (permute arguments) context := by
    simp only [permute, openBox_eq_orThrow]
    refine .orThrow_bind (fun _ => rfl) ?_
    intro keys _
    refine .bind (fun _ _ => addAllOrFault_eq_error) ?_
    intro pool left _
    exact .of_ok rfl
  exact hall fault after h

theorem deposit_eq_error {arguments : Vector Item 2}
    (h : deposit arguments context = .error fault after) : after = context := by
  have hall : FaultsWith (fun _ left => left = context) (deposit arguments) context := by
    simp only [deposit, openBox_eq_orThrow, pullOrFault_eq_orThrow]
    refine .orThrow_bind (fun _ => rfl) ?_
    intro items _
    refine .orThrow_bind (fun _ => rfl) ?_
    intro keys _
    refine .orThrow_bind (fun _ => rfl) ?_
    rintro ⟨key, rest⟩ _
    refine .bind (.of_ok (storeUnder_eq key items context)) ?_
    intro transfer left _
    exact .of_ok (warnIf_eq _ _ _)
  exact hall fault after h

/-- Fetching finds an entry under the key, but the key does not go back into its box
twice. -/
structure DropsEntry (arguments : Vector Item 2) (context : Context) (key : Item) : Prop where
  itemBox : (arguments.get 0).isBox
  entry : (context.store.find? key).isSome
  keyBox : ∃ keys rest, (arguments.get 1).contents? = some keys ∧
    keys.pull? = some (key, rest) ∧ rest.addAll? [key, key] = none

theorem fetch_of_dropsEntry {arguments : Vector Item 2} {key : Item}
    (h : DropsEntry arguments context key) :
    fetch arguments context = .error ⟨Opcode.get.name, .containerFull key.text⟩
      (context.withStore (context.store.erase key)) := by
  obtain ⟨hbox, hfound, keys, rest, hkeys, hkey, hrefused⟩ := h
  obtain ⟨items, hitems⟩ := Option.isSome_iff_exists.1 hbox
  obtain ⟨entry, hentry⟩ := Option.isSome_iff_exists.1 hfound
  have htake : takeEntry Opcode.get.name key context =
      .ok entry (context.withStore (context.store.erase key)) :=
    takeEntry_eq_ok_iff.2 ⟨hentry, rfl⟩
  simp only [fetch, openBox_eq_orThrow, pullOrFault_eq_orThrow, addOrFault_eq_orThrow]
  refine (bind_of_ok (orThrow_eq_ok_iff.2 ⟨hitems, rfl⟩)).trans ?_
  refine (bind_of_ok (orThrow_eq_ok_iff.2 ⟨hkeys, rfl⟩)).trans ?_
  refine (bind_of_ok (orThrow_eq_ok_iff.2 ⟨hkey, rfl⟩)).trans ?_
  refine (bind_of_ok htake).trans ?_
  rw [Inventory.addAll?_cons] at hrefused
  cases honce : rest.add? key with
  | none => exact bind_of_error (orThrow_eq_error_iff.2 ⟨rfl, rfl, rfl⟩)
  | some once =>
      rw [honce, Option.bind_some, Inventory.addAll?_cons] at hrefused
      have htwice : once.add? key = none := by
        cases h : once.add? key with
        | none => rfl
        | some twice =>
            rw [h] at hrefused
            cases hrefused
      refine (bind_of_ok (orThrow_eq_ok_iff.2 ⟨rfl, rfl⟩)).trans ?_
      exact bind_of_error (orThrow_eq_error_iff.2 ⟨htwice, rfl, rfl⟩)

/-- No other fault of a fetch comes after the entry has been taken. -/
theorem fetch_eq_error {arguments : Vector Item 2}
    (h : fetch arguments context = .error fault after) :
    after = context ∨ ∃ key, DropsEntry arguments context key := by
  have hall : FaultsWith (fun _ left => left = context ∨ ∃ key, DropsEntry arguments context key)
      (fetch arguments) context := by
    simp only [fetch, openBox_eq_orThrow, pullOrFault_eq_orThrow, addOrFault_eq_orThrow]
    refine .orThrow_bind (fun _ => Or.inl rfl) ?_
    intro items hitems
    refine .orThrow_bind (fun _ => Or.inl rfl) ?_
    intro keys hkeys
    refine .orThrow_bind (fun _ => Or.inl rfl) ?_
    rintro ⟨key, rest⟩ hkey
    refine .bind ?_ ?_
    · intro fault left he
      rw [takeEntry_eq] at he
      split at he
      · cases he
      · cases he
        exact Or.inl rfl
    intro entry left htake
    obtain ⟨hentry, _⟩ := takeEntry_eq_ok_iff.1 htake
    have drops : rest.addAll? [key, key] = none → ∃ key, DropsEntry arguments context key := by
      intro hrefused
      exact ⟨key, Item.isBox_of_contents? hitems, Option.isSome_iff_exists.2 ⟨entry, hentry⟩,
        keys, rest, hkeys, hkey, hrefused⟩
    refine .orThrow_bind ?_ ?_
    · intro honce
      refine Or.inr (drops ?_)
      rw [Inventory.addAll?_cons, honce]
      rfl
    intro once honce
    refine .orThrow_bind ?_ ?_
    · intro htwice
      refine Or.inr (drops ?_)
      rw [Inventory.addAll?_cons, honce, Option.bind_some, Inventory.addAll?_cons, htwice]
      rfl
    · intro twice _
      exact .of_ok (warnIf_eq _ _ _)
  exact hall fault after h

end Builtin

namespace Opcode

variable {context after : Context} {fault : Fault}

/-- Whether the opcode loses the entry under the key. -/
def Drops : (opcode : Opcode) → Vector Item opcode.arity → Context → Item → Prop
  | get, arguments, context, key => Builtin.DropsEntry arguments context key
  | set, _, _, _ | smelt, _, _, _ | permute, _, _, _ => False

theorem function_of_drops {opcode : Opcode} {arguments : Vector Item opcode.arity} {key : Item}
    (h : opcode.Drops arguments context key) :
    opcode.function arguments context = .error ⟨opcode.name, .containerFull key.text⟩
      (context.withStore (context.store.erase key)) ∧ (context.store.find? key).isSome := by
  cases opcode with
  | get => exact ⟨Builtin.fetch_of_dropsEntry h, Builtin.DropsEntry.entry h⟩
  | set | smelt | permute => exact h.elim

theorem function_eq_error {opcode : Opcode} {arguments : Vector Item opcode.arity}
    (h : opcode.function arguments context = .error fault after) :
    after = context ∨ ∃ key, opcode.Drops arguments context key := by
  cases opcode with
  | get => exact Builtin.fetch_eq_error h
  | set => exact Or.inl (Builtin.deposit_eq_error h)
  | smelt => exact Or.inl (Builtin.smelt_eq_error h)
  | permute => exact Or.inl (Builtin.permute_eq_error h)

/-- An opcode that faults leaves its context as it was, unless it drops an entry; then that
entry is all that is gone. -/
theorem context_of_fault {opcode : Opcode} {arguments : Vector Item opcode.arity}
    (h : opcode.function arguments context = .error fault after) :
    (after = context ↔ ∀ key, ¬ opcode.Drops arguments context key) ∧
      ∀ key, opcode.Drops arguments context key →
        fault = ⟨opcode.name, .containerFull key.text⟩ ∧
          after = context.withStore (context.store.erase key) := by
  have hdrops : ∀ key, opcode.Drops arguments context key →
      (fault = ⟨opcode.name, .containerFull key.text⟩ ∧
        after = context.withStore (context.store.erase key)) ∧
          (context.store.find? key).isSome := by
    intro key hkey
    obtain ⟨herror, hfound⟩ := function_of_drops hkey
    exact ⟨EStateM.Result.error.inj (h.symm.trans herror), hfound⟩
  refine ⟨⟨?_, ?_⟩, fun key hkey => (hdrops key hkey).1⟩
  · intro hsame key hkey
    obtain ⟨⟨_, herased⟩, hfound⟩ := hdrops key hkey
    exact ItemMap.erase_ne_self hfound (congrArg Context.store (herased.symm.trans hsame))
  · intro hnone
    cases function_eq_error h with
    | inl hsame => exact hsame
    | inr hsome => exact absurd hsome.choose_spec (hnone _)

/-- A key box with one slot for one key, and an entry under that key. -/
def crammed : Vector Item 2 × Context :=
  let key := (Item.paper "key").withLimit 1
  (#v[.box .chest, .box ((Inventory.empty 1).fill [key])],
    { Context.ofConfig .standard with
      store := ItemMap.empty.insert (.paper "key") (Inventory.chest.fill [.ofKind "stone"]) })

/-- Without the entry, the key is not found and nothing changes. -/
theorem missing_context_of_fault :
    Builtin.fetch crammed.1 (.ofConfig .standard) =
        .error ⟨get.name, .keyNotFound (Item.paper "key").text⟩ (.ofConfig .standard) ∧
      ((Context.ofConfig .standard = Context.ofConfig .standard ↔
          ∀ key, ¬ get.Drops crammed.1 (.ofConfig .standard) key) ∧
        ∀ key, get.Drops crammed.1 (.ofConfig .standard) key →
          (⟨get.name, .keyNotFound (Item.paper "key").text⟩ : Fault) =
              ⟨get.name, .containerFull key.text⟩ ∧
            Context.ofConfig .standard = (Context.ofConfig .standard).withStore
              ((Context.ofConfig .standard).store.erase key)) :=
  ⟨rfl, context_of_fault rfl⟩

/-- With the entry, fetching faults and the entry is gone. -/
theorem crammed_drops_entry :
    Builtin.fetch crammed.1 crammed.2 =
        .error ⟨get.name, .containerFull (Item.paper "key").text⟩
          (crammed.2.withStore (crammed.2.store.erase (.paper "key"))) ∧
      crammed.2.store.size = 1 ∧ (crammed.2.store.erase (.paper "key")).size = 0 :=
  ⟨rfl, rfl, rfl⟩

end Opcode
end ChestMachine
