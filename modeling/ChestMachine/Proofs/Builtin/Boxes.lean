import Mathlib.Data.List.Forall2
import ChestMachine.Proofs.Builtin.Store
import ChestMachine.Proofs.Layout

/-!
Smelting and regrouping. Main statements: when they succeed and with what; that
what they return obeys every rule that closed boxes and the outputs of the furnace
obey; and that neither finds a container full, since a chest has a slot for each of
the values that are dealt out.
-/
namespace ChestMachine
namespace Builtin

variable {context after : Context} {results : List Item} {rule : Item → Bool}
  {operation : String}

theorem smeltUnit_eq_orThrow (operation : String) (unit : Item) (context : Context) :
    smeltUnit operation unit context =
      orThrow (context.furnace.find? unit) ⟨operation, .unknownItem unit.text⟩ context := by
  simp only [smeltUnit, get_bind]
  cases context.furnace.find? unit <;> rfl

/-- What the furnace makes of each unit, if it knows them all. -/
def products? (context : Context) (units : List Item) : Option (List Item) :=
  units.mapM context.furnace.find?

/-- Each unit has its own product. -/
theorem products?_eq_some_iff {units products : List Item} :
    products? context units = some products ↔
      List.Forall₂ (fun unit product => context.furnace.find? unit = some product) units
        products := by
  induction units generalizing products with
  | nil =>
      rw [List.forall₂_nil_left_iff, products?, List.mapM_nil, Option.pure_def,
        Option.some.injEq, eq_comm]
  | cons unit rest ih =>
      simp only [products?, List.mapM_cons, Option.bind_eq_bind, Option.bind_eq_some_iff,
        Option.pure_def, Option.some.injEq, List.forall₂_cons_left_iff] at ih ⊢
      constructor
      · rintro ⟨product, hproduct, later, hlater, rfl⟩
        exact ⟨product, later, hproduct, ih.1 hlater, rfl⟩
      · rintro ⟨product, later, hproduct, hlater, rfl⟩
        exact ⟨product, hproduct, later, ih.2 hlater, rfl⟩

theorem length_products {units products : List Item}
    (h : products? context units = some products) : products.length = units.length :=
  (products?_eq_some_iff.1 h).length_eq.symm

theorem smeltUnits_eq_ok_iff {units products : List Item} :
    units.mapM (smeltUnit operation) context = .ok products after ↔
      products? context units = some products ∧ after = context := by
  induction units generalizing products with
  | nil => simp [products?, pure_eq_ok_iff, eq_comm]
  | cons unit rest ih =>
      simp only [products?, List.mapM_cons, bind_eq_ok_iff, pure_eq_ok_iff, smeltUnit_eq_orThrow,
        orThrow_eq_ok_iff, Option.bind_eq_bind, Option.bind_eq_some_iff, Option.pure_def,
        Option.some.injEq] at ih ⊢
      constructor
      · rintro ⟨product, _, ⟨hproduct, rfl⟩, later, _, hlater, rfl, rfl⟩
        obtain ⟨hlater, hcontext⟩ := ih.1 hlater
        exact ⟨⟨product, hproduct, later, hlater, rfl⟩, hcontext⟩
      · rintro ⟨⟨product, hproduct, later, hlater, rfl⟩, hcontext⟩
        exact ⟨product, context, ⟨hproduct, rfl⟩, later, after, ih.2 ⟨hlater, hcontext⟩, rfl, rfl⟩

theorem faultsAs_smeltUnits {P : Fault → Prop} {units : List Item}
    (h : ∀ unit ∈ units, P ⟨operation, .unknownItem unit.text⟩) :
    FaultsAs P (units.mapM (smeltUnit operation)) context := by
  apply FaultsAs.mapM
  intro unit hu context fault after he
  rw [smeltUnit_eq_orThrow] at he
  exact FaultsAs.orThrow (fun _ => h unit hu) fault after he

theorem smelt_eq_ok_iff {arguments : Vector Item 1} :
    smelt arguments context = .ok results after ↔
      ∃ items products, (arguments.get 0).contents? = some items ∧
        products? context items.units = some products ∧
        results = [.box ((Inventory.deliver products .chest).target.transfer
          items.pullAll.2 none).target] ∧
        after = context.warnedIf (0 < (Inventory.deliver products .chest).refused)
          (.furnaceFull (Inventory.deliver products .chest).refused) := by
  simp only [smelt, openBox_eq_orThrow, bind_eq_ok_iff, orThrow_eq_ok_iff, gt_iff_lt, warnIf_eq,
    smeltUnits_eq_ok_iff, Inventory.fst_pullAll]
  constructor
  · rintro ⟨items, _, ⟨hitems, rfl⟩, products, _, ⟨hproducts, rfl⟩, heq⟩
    simp only [EStateM.Result.ok.injEq] at heq
    exact ⟨items, products, hitems, hproducts, heq.1.symm, heq.2.symm⟩
  · rintro ⟨items, products, hitems, hproducts, rfl, rfl⟩
    exact ⟨items, _, ⟨hitems, rfl⟩, products, _, ⟨hproducts, rfl⟩, rfl⟩

theorem addAllOrFault_eq_ok_iff {items : List Item} {target target' : Inventory} :
    addAllOrFault operation items target context = .ok target' after ↔
      target.addAll? items = some target' ∧ after = context := by
  induction items generalizing target context with
  | nil =>
      have hnil : target.addAll? [] = some target := rfl
      simp only [addAllOrFault, pure_eq_ok_iff, hnil, Option.some.injEq, eq_comm]
  | cons item rest ih =>
      simp only [addAllOrFault, addOrFault_eq_orThrow, bind_eq_ok_iff, orThrow_eq_ok_iff, ih,
        Inventory.addAll?_cons, Option.bind_eq_some_iff]
      constructor
      · intro ⟨next, _, ⟨hnext, hsame⟩, hrest, hafter⟩
        exact ⟨⟨next, hnext, hrest⟩, hafter.trans hsame⟩
      · intro ⟨⟨next, hnext, hrest⟩, hafter⟩
        exact ⟨next, context, ⟨hnext, rfl⟩, hrest, hafter⟩

theorem permute_eq_ok_iff {arguments : Vector Item 27} :
    permute arguments context = .ok results after ↔
      ∃ keys pool, (arguments.get 0).contents? = some keys ∧
        Inventory.chest.addAll? arguments.toList.tail = some pool ∧
        results =
          (deal (keys.pullRuns.1.map context.config.chunking.chunkSize) pool).map .box ∧
        after = context := by
  simp only [permute, openBox_eq_orThrow, bind_eq_ok_iff, orThrow_eq_ok_iff, pure_eq_ok_iff,
    addAllOrFault_eq_ok_iff]
  constructor
  · intro ⟨keys, first, ⟨hkeys, hfirst⟩, pool, second, ⟨hpool, hsecond⟩, seen, _, hseen,
      hresults, hafter⟩
    rw [hsecond, hfirst] at hseen
    cases hseen
    exact ⟨keys, pool, hkeys, hpool, hresults, hafter⟩
  · intro ⟨keys, pool, hkeys, hpool, hresults, hafter⟩
    exact ⟨keys, context, ⟨hkeys, rfl⟩, pool, context, ⟨hpool, rfl⟩, context, context, rfl,
      hresults, hafter⟩

section Rule

theorem obeys_products (hc : context.Obeys rule) {units products : List Item}
    (h : products? context units = some products) :
    ∀ product ∈ products, product.obeys rule := by
  rw [products?_eq_some_iff] at h
  induction h with
  | nil => exact nofun
  | cons hproduct _ ih =>
      have hhead := ItemMap.all_find? (P := fun product => product.obeys rule) hc.furnace hproduct
      exact List.forall_mem_cons.2 ⟨hhead, ih⟩

theorem obeys_chest : Inventory.chest.obeys rule :=
  Inventory.obeys_empty _

theorem obeys_deal {pool : Inventory} (h : pool.obeys rule) (sizes : List Nat) :
    ∀ group ∈ deal sizes pool, group.obeys rule := by
  induction sizes generalizing pool with
  | nil =>
      intro group hg
      simp only [deal] at hg
      split at hg
      · cases hg
      · rw [List.mem_singleton.1 hg]
        exact (Inventory.obeys_transfer h obeys_chest none).2
  | cons size sizes ih =>
      have hmoved := Inventory.obeys_transfer h obeys_chest (some size)
      intro group hg
      simp only [deal] at hg
      split at hg
      · exact ih hmoved.1 group hg
      · cases List.mem_cons.1 hg with
        | inl heq =>
            rw [heq]
            exact hmoved.2
        | inr hlater => exact ih hmoved.1 group hlater

variable (hbox : ∀ contents, rule (.box contents))
include hbox

theorem obeys_smelt {arguments : Vector Item 1} (ha : ∀ argument ∈ arguments, argument.obeys rule)
    (hc : context.Obeys rule) (h : smelt arguments context = .ok results after) :
    (∀ result ∈ results, result.obeys rule) ∧ after.Obeys rule := by
  obtain ⟨items, products, hitems, hproducts, rfl, rfl⟩ := smelt_eq_ok_iff.1 h
  have hitems' : items.obeys rule :=
    Item.obeys_contents (ha _ (Vector.getElem_mem _)) hitems
  refine ⟨?_, Context.obeys_warnedIf hc _ _⟩
  intro result hr
  rw [List.mem_singleton.1 hr]
  apply Item.obeys_box _ (hbox _)
  apply (Inventory.obeys_transfer _ (Inventory.obeys_pullMany hitems' _).2 none).2
  exact Inventory.obeys_fill obeys_chest (obeys_products hc hproducts)

theorem obeys_permute {arguments : Vector Item 27}
    (ha : ∀ argument ∈ arguments, argument.obeys rule)
    (hc : context.Obeys rule) (h : permute arguments context = .ok results after) :
    (∀ result ∈ results, result.obeys rule) ∧ after.Obeys rule := by
  obtain ⟨keys, pool, _, hpool, rfl, rfl⟩ := permute_eq_ok_iff.1 h
  refine ⟨?_, hc⟩
  have hpool' : pool.obeys rule := by
    apply Inventory.obeys_addAll? obeys_chest _ hpool
    intro item hi
    exact ha item (Vector.mem_toList_iff.1 (List.mem_of_mem_tail hi))
  intro result hr
  obtain ⟨group, hg, rfl⟩ := List.mem_map.1 hr
  exact Item.obeys_box (obeys_deal hpool' _ group hg) (hbox group)

end Rule

/-- Smelting takes a box and gives one. -/
theorem smelt_boxes {arguments : Vector Item 1}
    (h : smelt arguments context = .ok results after) :
    (∀ argument ∈ arguments, argument.isBox) ∧ results.length = 1 := by
  obtain ⟨items, products, hitems, _, rfl, _⟩ := smelt_eq_ok_iff.1 h
  refine ⟨?_, rfl⟩
  intro argument ha
  obtain ⟨i, hi, rfl⟩ := Vector.mem_iff_getElem.1 ha
  match i, hi with
  | 0, _ => exact Item.isBox_of_contents? hitems

theorem permute_boxes {arguments : Vector Item 27}
    (h : permute arguments context = .ok results after) :
    ∀ result ∈ results, result.isBox ∧ result.limit = 1 := by
  obtain ⟨keys, pool, _, _, rfl, _⟩ := permute_eq_ok_iff.1 h
  intro result hr
  obtain ⟨group, _, rfl⟩ := List.mem_map.1 hr
  exact ⟨rfl, rfl⟩

theorem smelt_full (arguments : Vector Item 1) (context : Context) :
    FaultsAs (·.cause.category ≠ .capacity) (smelt arguments) context := by
  simp only [smelt, openBox_eq_orThrow]
  refine .orThrow_bind (fun _ => nofun) ?_
  intro items _
  refine .bind (faultsAs_smeltUnits fun _ _ => nofun) ?_
  intro products left _
  exact .of_ok (warnIf_eq _ _ _)

/-- The values of a regrouping fit into a chest, which has a slot for each of them. -/
theorem exists_pool {arguments : Vector Item 27}
    (h : ∀ value ∈ arguments.toList.tail, 0 < value.limit) :
    ∃ pool, Inventory.chest.addAll? arguments.toList.tail = some pool := by
  have hroom : ([] : Rows).length + arguments.toList.tail.length ≤ Inventory.chestSize := by
    rw [List.length_tail, Vector.length_toList]
    exact show 26 ≤ 27 by decide
  obtain ⟨rows, hrows⟩ := Rows.stow?_of_room h hroom
  refine ⟨.ofRows Inventory.chestSize rows, ?_⟩
  rw [Inventory.chest, Inventory.addAll?_empty, hrows]
  rfl

theorem permute_full {arguments : Vector Item 27} (ha : ∀ argument ∈ arguments, 0 < argument.limit)
    (context : Context) : FaultsAs (·.cause.category ≠ .capacity) (permute arguments) context := by
  have hstacks : ∀ value ∈ arguments.toList.tail, 0 < value.limit := by
    intro value hvalue
    exact ha value (Vector.mem_toList_iff.1 (List.mem_of_mem_tail hvalue))
  obtain ⟨pool, hpool⟩ := exists_pool hstacks
  simp only [permute, openBox_eq_orThrow]
  refine .orThrow_bind (fun _ => nofun) ?_
  intro keys _
  refine .bind (.of_ok (addAllOrFault_eq_ok_iff.2 ⟨hpool, rfl⟩)) ?_
  intro pool left _
  exact .of_ok rfl

end Builtin
end ChestMachine
