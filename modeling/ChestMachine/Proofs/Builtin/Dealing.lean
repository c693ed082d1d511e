import Mathlib.Data.List.SplitLengths
import ChestMachine.Proofs.Builtin.Boxes
import ChestMachine.Proofs.Draining
import ChestMachine.Proofs.Runs

/-!
Regrouping deals out every value once. Main statements: the values are cut into consecutive
segments, one for each run of the keys and one for what is left; each segment fills a chest
of its own, those without values are left out; and nothing but a first argument that is no
box makes a regrouping fault.
-/
namespace ChestMachine

/-- So many of what is left go to each of the sizes, as far as there are any. -/
def shares : Nat → List Nat → List Nat
  | _, [] => []
  | left, size :: sizes => min size left :: shares (left - size) sizes

/-- Each share is the size, or all that the shares before it leave. -/
theorem getElem?_shares (left : Nat) (sizes : List Nat) (i : Nat) :
    (shares left sizes)[i]? =
      sizes[i]?.map fun size => min size (left - ((shares left sizes).take i).sum) := by
  induction sizes generalizing left i with
  | nil => rfl
  | cons size sizes ih =>
      cases i with
      | zero => rfl
      | succ i =>
          have hleft : left - size = left - min size left := by omega
          rw [shares, List.getElem?_cons_succ, List.getElem?_cons_succ, ih, List.take_succ_cons,
            List.sum_cons, ← Nat.sub_sub, ← hleft]

/-- Consecutive segments of these sizes, without the empty ones, and a last one where units are
left. -/
def segments (sizes : List Nat) (units : List Item) : List (List Item) :=
  (sizes.filter (0 < ·)).splitLengths units ++
    if sizes.sum < units.length then [units.drop sizes.sum] else []

theorem segments_nil (units : List Item) :
    segments [] units = if units = [] then [] else [units] := by
  cases units with
  | nil => rfl
  | cons unit rest =>
      have hsome : ([] : List Nat).sum < (unit :: rest).length := Nat.succ_pos rest.length
      rw [segments, if_pos hsome, if_neg (List.cons_ne_nil unit rest)]
      rfl

theorem segments_cons (size : Nat) (later : List Nat) (units : List Item) :
    segments (min size units.length :: later) units =
      if units.take size = [] then segments later (units.drop size)
      else units.take size :: segments later (units.drop size) := by
  have hlen : (units.take size).length = min size units.length := List.length_take
  split
  · rename_i hnone
    have hdrop : units.drop size = units := by
      rw [← List.nil_append (units.drop size), ← hnone, List.take_append_drop]
    rw [hnone, List.length_nil] at hlen
    rw [segments, ← hlen, hdrop, List.filter_cons_of_neg (by decide), List.sum_cons, Nat.zero_add,
      segments]
  · rename_i hsome
    have hpos : 0 < min size units.length := by
      rw [← hlen]
      exact List.length_pos_iff.2 hsome
    have hdrop : units.drop (min size units.length) = units.drop size := by
      rw [List.drop_eq_drop_iff]
      omega
    have hleft : min size units.length + later.sum < units.length ↔
        later.sum < units.length - size := by
      omega
    have hkept : (min size units.length :: later).filter (0 < ·) =
        min size units.length :: later.filter (0 < ·) :=
      List.filter_cons_of_pos (decide_eq_true hpos)
    simp only [segments, hkept, List.splitLengths_cons, ← List.take_eq_take_min, List.sum_cons,
      ← List.drop_drop, hdrop, hleft, List.length_drop, List.cons_append]

theorem flatten_segments (sizes : List Nat) (units : List Item) :
    (segments (shares units.length sizes) units).flatten = units := by
  induction sizes generalizing units with
  | nil =>
      rw [shares, segments_nil]
      split
      · rename_i hnone
        rw [hnone]
        rfl
      · exact List.flatten_singleton
  | cons size sizes ih =>
      have ih := ih (units.drop size)
      rw [List.length_drop] at ih
      rw [shares, segments_cons]
      split
      · rename_i hnone
        rw [ih, ← List.nil_append (units.drop size), ← hnone, List.take_append_drop]
      · rw [List.flatten_cons, ih, List.take_append_drop]

theorem ne_nil_of_mem_segments {sizes : List Nat} {units segment : List Item}
    (h : segment ∈ segments (shares units.length sizes) units) : segment ≠ [] := by
  induction sizes generalizing units with
  | nil =>
      rw [shares, segments_nil] at h
      split at h
      · cases h
      · rename_i hsome
        rwa [List.mem_singleton.1 h]
  | cons size sizes ih =>
      rw [shares, segments_cons, ← List.length_drop] at h
      split at h
      · exact ih h
      · rename_i hsome
        cases List.mem_cons.1 h with
        | inl hfirst => rwa [hfirst]
        | inr hlater => exact ih hlater

/-- Each chest has been filled with the units of one part. -/
abbrev Deals (parts : List (List Item)) (groups : List Inventory) : Prop :=
  List.Forall₂ (fun part group => Inventory.chest.addAll? part = some group) parts groups

namespace Builtin

/-- The chests are the segments of the pool, if there are not too many units for one. -/
theorem deals_deal {pool : Inventory} (hw : pool.WithinLimits)
    (hsize : pool.size ≤ Inventory.chestSize) (sizes : List Nat) :
    Deals (segments (shares pool.units.length sizes) pool.units) (deal sizes pool) := by
  induction sizes generalizing pool with
  | nil =>
      have hall := Inventory.refusals_of_size_le hw Inventory.isEmpty_chest hsize
      rw [shares, segments_nil, deal, Inventory.target_transfer_none]
      simp only [Inventory.isEmpty_iff]
      split
      · exact .nil
      · exact .cons (Inventory.addAll?_eq_some_iff.2 ⟨hall, rfl⟩) .nil
  | cons size sizes ih =>
      have hfit := Inventory.refusals_of_size_le hw Inventory.isEmpty_chest hsize
      have hall := Inventory.refusals_take hfit size
      have hlater : (pool.without size).size ≤ Inventory.chestSize := by
        rwa [Inventory.size_without]
      have ih := ih (Inventory.withinLimits_without hw size) hlater
      rw [Inventory.units_without, List.length_drop] at ih
      rw [shares, segments_cons, deal, Inventory.transfer_some_of_fit hall]
      simp only [Inventory.isEmpty_fill_of_fit Inventory.isEmpty_chest hall]
      split
      · exact ih
      · exact .cons (Inventory.addAll?_eq_some_iff.2 ⟨hall, rfl⟩) ih

theorem countOf_deals {parts : List (List Item)} {groups : List Inventory}
    (h : Deals parts groups) (x : Item) :
    (groups.map (·.countOf x)).sum = parts.flatten.countP (· == x) := by
  induction h with
  | nil => rfl
  | cons hgroup _ ih =>
      have hcount := Inventory.countOf_addAll? hgroup x
      rw [Inventory.countOf_of_isEmpty Inventory.isEmpty_chest, Nat.zero_add] at hcount
      rw [List.map_cons, List.sum_cons, ih, hcount, List.flatten_cons, List.countP_append]

theorem not_isEmpty_of_deals {parts : List (List Item)} {groups : List Inventory}
    (h : Deals parts groups) (hn : ∀ part ∈ parts, part ≠ []) :
    ∀ group ∈ groups, ¬ group.isEmpty := by
  induction h with
  | nil => exact nofun
  | cons hgroup _ ih =>
      obtain ⟨hsome, hlater⟩ := List.forall_mem_cons.1 hn
      obtain ⟨hall, rfl⟩ := Inventory.addAll?_eq_some_iff.1 hgroup
      refine List.forall_mem_cons.2 ⟨?_, ih hlater⟩
      rwa [Inventory.isEmpty_fill_of_fit Inventory.isEmpty_chest hall]

/-- The groups that are made of the values by the runs of the keys. -/
structure Regroups (policy : ChunkPolicy) (keys : Inventory) (values : List Item)
    (groups : List Inventory) (pool : Inventory) (sizes : List Nat) : Prop where
  pooled : Inventory.chest.addAll? values = some pool
  total : pool.units.length = 26
  sized : ∀ i, sizes[i]? = keys.runs[i]?.map fun run =>
    min (policy.chunkSize run.length) (26 - (sizes.take i).sum)
  deals : Deals (segments sizes pool.units) groups
  keeps : ∀ x, (groups.map (·.countOf x)).sum = values.countP (· == x)
  nonempty : ∀ group ∈ groups, ¬ group.isEmpty

theorem regroups_deal {keys pool : Inventory} {values : List Item} (policy : ChunkPolicy)
    (hlen : values.length = 26) (hpool : Inventory.chest.addAll? values = some pool) :
    ∃ sizes, Regroups policy keys values (deal (keys.pullRuns.1.map policy.chunkSize) pool) pool
      sizes := by
  obtain ⟨hall, rfl⟩ := Inventory.addAll?_eq_some_iff.1 hpool
  have htotal := Inventory.totalCount_fill_of_isEmpty Inventory.isEmpty_chest values
  rw [hall, List.length_nil, Nat.add_zero, hlen, ← Inventory.length_units] at htotal
  have hdeals := deals_deal (Inventory.withinLimits_fill Inventory.withinLimits_chest values)
    (Nat.le_of_eq (Inventory.size_fill _ _)) (keys.pullRuns.1.map policy.chunkSize)
  refine ⟨_, hpool, htotal, ?_, hdeals, ?_, not_isEmpty_of_deals hdeals ?_⟩
  · intro i
    rw [getElem?_shares, htotal, keys.fst_pullRuns, List.getElem?_map, List.getElem?_map,
      Option.map_map, Option.map_map]
    rfl
  · intro x
    rw [countOf_deals hdeals, flatten_segments, ← Inventory.countOf_eq_countP,
      Inventory.countOf_addAll? hpool, Inventory.countOf_of_isEmpty Inventory.isEmpty_chest,
      Nat.zero_add]
  · intro segment
    exact ne_nil_of_mem_segments

theorem permute_of_contents? {arguments : Vector Item 27} {keys pool : Inventory}
    (hkeys : (arguments.get 0).contents? = some keys)
    (hpool : Inventory.chest.addAll? arguments.toList.tail = some pool) (context : Context) :
    permute arguments context =
      .ok ((deal (keys.pullRuns.1.map context.config.chunking.chunkSize) pool).map .box)
        context :=
  permute_eq_ok_iff.2 ⟨keys, pool, hkeys, hpool, rfl, rfl⟩

theorem permute_of_no_box {arguments : Vector Item 27} (h : (arguments.get 0).contents? = none)
    (context : Context) : permute arguments context =
      .error ⟨Opcode.permute.name, .notABox (.argument 0) (arguments.get 0).text⟩ context := by
  simp only [permute, openBox_eq_orThrow]
  exact bind_of_error (orThrow_eq_error_iff.2 ⟨h, rfl, rfl⟩)

/-- Values that stack are regrouped by every box of keys. Each run takes its chunk of them, or
what is left, and a last group takes the rest. -/
theorem permute_regroups {arguments : Vector Item 27}
    (h : ∀ value ∈ arguments.toList.tail, 0 < value.limit) (context : Context) :
    (∀ keys, (arguments.get 0).contents? = some keys → ∃ groups pool sizes,
      Regroups context.config.chunking keys arguments.toList.tail groups pool sizes ∧
        permute arguments context = .ok (groups.map .box) context) ∧
    ∀ fault after, permute arguments context = .error fault after ↔
      (arguments.get 0).contents? = none ∧
        fault = ⟨Opcode.permute.name, .notABox (.argument 0) (arguments.get 0).text⟩ ∧
        after = context := by
  obtain ⟨pool, hpool⟩ := exists_pool h
  have hlen : arguments.toList.tail.length = 26 := by
    rw [List.length_tail, Vector.length_toList]
  refine ⟨?_, ?_⟩
  · intro keys hkeys
    obtain ⟨sizes, hregroups⟩ := regroups_deal context.config.chunking hlen hpool
    exact ⟨_, pool, sizes, hregroups, permute_of_contents? hkeys hpool context⟩
  · intro fault after
    cases hkeys : (arguments.get 0).contents? with
    | none =>
        rw [permute_of_no_box hkeys, EStateM.Result.error.injEq, eq_comm, eq_comm (b := after)]
        exact ⟨fun ⟨hfault, hafter⟩ => ⟨rfl, hfault, hafter⟩, fun h => h.2⟩
    | some keys =>
        rw [permute_of_contents? hkeys hpool]
        exact ⟨nofun, fun h => nomatch h.1⟩

namespace Cards

/-- Three units of one key in two slots, and one of another behind them. -/
def keys : Inventory :=
  ⟨[.used (.paper "a") 2, .fresh, .used ((Item.paper "a").withLimit 1) 1, .used (.paper "b") 1]⟩

/-- One value is not like the others. -/
def arguments : Vector Item 27 :=
  ⟨⟨.box keys :: .ofKind "stone" :: .ofKind "ash" :: List.replicate 24 (.ofKind "stone")⟩, rfl⟩

theorem limit_pos : ∀ value ∈ arguments.toList.tail, 0 < value.limit := by decide

/-- The values are dealt out in threes and ones, and there are many left. -/
theorem cards_regroups :
    (∀ value ∈ arguments.toList.tail, 0 < value.limit) ∧
    (∃ groups pool sizes, Regroups .runLength keys arguments.toList.tail groups pool sizes ∧
      permute arguments (.ofConfig .standard) = .ok (groups.map .box) (.ofConfig .standard)) ∧
    ∃ results, permute arguments (.ofConfig .standard) = .ok results (.ofConfig .standard) ∧
      results.map (·.contents?.map Inventory.totalCount) = [some 3, some 1, some 22] :=
  ⟨limit_pos, (permute_regroups limit_pos (.ofConfig .standard)).1 keys rfl, _, rfl, rfl⟩

end Cards
end Builtin
end ChestMachine
