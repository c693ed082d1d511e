import ChestMachine.Proofs.Call.Restore
import ChestMachine.Proofs.Rendering
import ChestMachine.Proofs.Route

/-!
Opcodes whose operands are all that is in memory, each in a slot of its own. Main
statement: an opcode that trades two boxes for two leaves a memory of the same form, in
which the two tokens have changed places.
-/
namespace ChestMachine

/-- No two of these units go into one slot, and each goes into some. -/
structure Apart (units : List Item) : Prop where
  stack : ∀ unit ∈ units, 0 < unit.limit
  pairwise : units.Pairwise fun a b => a == b → a.limit ≤ 1

/-- One row for each of the units. -/
def Rows.ofUnits (units : List Item) : Rows :=
  units.map (·, 1)

theorem Rows.units_ofUnits (units : List Item) : (ofUnits units).units = units := by
  induction units with
  | nil => rfl
  | cons unit rest ih => exact congrArg (unit :: ·) ih

namespace Apart

variable {units old : List Item} {size : Nat}

theorem stocked (h : Apart units) : Rows.Stocked (Rows.ofUnits units) := by
  intro row hrow
  obtain ⟨unit, hunit, rfl⟩ := List.mem_map.1 hrow
  exact Rows.stocked_one (h.stack unit hunit) _ (List.mem_singleton_self _)

theorem tight (h : Apart units) : Rows.Tight (Rows.ofUnits units) :=
  List.pairwise_map.2 h.pairwise

theorem fill_eq (h : Apart units) (hl : units.length ≤ size) :
    (Inventory.empty size).fill units = .ofRows size (Rows.ofUnits units) := by
  have hrows : (Rows.ofUnits units).length ≤ size := by rwa [Rows.ofUnits, List.length_map]
  have hall := Inventory.addAll?_units_of_tight h.stocked h.tight hrows
  rw [Rows.units_ofUnits] at hall
  exact (Inventory.addAll?_eq_some_iff.1 hall).2

theorem units_fill (h : Apart units) (hl : units.length ≤ size) :
    ((Inventory.empty size).fill units).units = units := by
  rw [h.fill_eq hl, Inventory.units_eq_units_items, Inventory.items_ofRows h.stocked,
    Rows.units_ofUnits]

/-- They take the slots of as many others, once these are gone. -/
theorem addAll?_emptied (h : Apart units) (ho : Apart old) (hlen : old.length = units.length)
    (hl : units.length ≤ size) :
    ((Inventory.empty size).fill old).emptied.addAll? units =
      some ((Inventory.empty size).fill units) := by
  have hrows : (Rows.ofUnits old).length = (Rows.ofUnits units).length := by
    rw [Rows.ofUnits, Rows.ofUnits, List.length_map, List.length_map, hlen]
  have hall : (Inventory.ofRows size (Rows.ofUnits old)).emptied.addAll? _ = _ :=
    Inventory.addAll?_emptied h.stocked h.tight hrows
  rwa [Rows.units_ofUnits, ← h.fill_eq hl, ← ho.fill_eq (hlen ▸ hl)] at hall

end Apart

namespace Opcode

theorem descriptor_stacks (opcode : Opcode) : 0 < opcode.descriptor.limit :=
  show (0 : UInt32) < 64 by decide

theorem descriptor_beq_box (opcode : Opcode) (contents : Inventory) :
    (opcode.descriptor == Item.box contents) = false := rfl

theorem box_beq_descriptor (contents : Inventory) (opcode : Opcode) :
    (Item.box contents == opcode.descriptor) = false := rfl

theorem descriptor_beq {a b : Opcode} (h : a ≠ b) : (a.descriptor == b.descriptor) = false := by
  cases a <;> cases b <;> first | rfl | exact absurd rfl h

/-- A token and closed boxes. -/
def laidUnits (opcode : Opcode) (boxes : List Inventory) : List Item :=
  opcode.descriptor :: boxes.map .box

/-- A chest with the token in the first slot and the boxes behind it. -/
def laid (opcode : Opcode) (boxes : List Inventory) : Inventory :=
  Inventory.chest.fill (opcode.laidUnits boxes)

/-- The contents of a box with the token in it. -/
def ticket (opcode : Opcode) (slots : Nat) : Inventory :=
  (Inventory.empty slots).fill [opcode.descriptor]

variable {opcode : Opcode} {boxes : List Inventory} {slots : Nat}

theorem apart_laidUnits (opcode : Opcode) (boxes : List Inventory) :
    Apart (opcode.laidUnits boxes) where
  stack := by
    refine List.forall_mem_cons.2 ⟨opcode.descriptor_stacks, ?_⟩
    intro unit hunit
    obtain ⟨contents, _, rfl⟩ := List.mem_map.1 hunit
    exact show (0 : UInt32) < 1 by decide
  pairwise := by
    refine List.pairwise_cons.2 ⟨?_, ?_⟩
    · intro unit hunit hsame
      obtain ⟨contents, _, rfl⟩ := List.mem_map.1 hunit
      rw [descriptor_beq_box] at hsame
      cases hsame
    · rw [List.pairwise_map]
      exact List.pairwise_of_forall fun _ _ _ => UInt32.le_refl 1

theorem apart_ticket (opcode : Opcode) : Apart [opcode.descriptor] where
  stack := List.forall_mem_cons.2 ⟨opcode.descriptor_stacks, nofun⟩
  pairwise := List.pairwise_singleton _ _

theorem length_laidUnits (opcode : Opcode) (boxes : List Inventory) :
    (opcode.laidUnits boxes).length = boxes.length + 1 := by
  rw [laidUnits, List.length_cons, List.length_map]

section Laid

variable (hl : boxes.length < Inventory.chestSize)
include hl

theorem laid_eq : opcode.laid boxes =
    .ofRows Inventory.chestSize (Rows.ofUnits (opcode.laidUnits boxes)) := by
  apply (opcode.apart_laidUnits boxes).fill_eq
  rwa [length_laidUnits]

theorem units_laid : (opcode.laid boxes).units = opcode.laidUnits boxes := by
  apply (opcode.apart_laidUnits boxes).units_fill
  rwa [length_laidUnits]

theorem selects_laid :
    RouteTable.Selects opcode (opcode.laid boxes) (opcode.laid boxes) := by
  have hpulled : ∃ mid,
      (Inventory.ofRows Inventory.chestSize (Rows.ofUnits (opcode.laidUnits boxes))).pullMatching?
          opcode.descriptor = some (opcode.descriptor, mid) ∧
        mid.add? opcode.descriptor =
          some (.ofRows Inventory.chestSize (Rows.ofUnits (opcode.laidUnits boxes))) :=
    Inventory.pullWanted?_ofRows (opcode.apart_laidUnits boxes).stocked BEq.rfl
  rw [← laid_eq hl] at hpulled
  obtain ⟨mid, hpull, hadd⟩ := hpulled
  refine RouteTable.selects_of_only hpull hadd ?_
  intro other hother
  apply Inventory.pullWanted?_eq_none
  rw [units_laid hl]
  refine List.forall_mem_cons.2 ⟨descriptor_beq hother.symm, ?_⟩
  intro unit hunit
  obtain ⟨contents, _, rfl⟩ := List.mem_map.1 hunit
  exact box_beq_descriptor contents other

theorem dispatch_laid {context : Context} {next : Machine}
    (hrun : opcode.call.run ⟨opcode.laid boxes, context⟩ = .ok () next) :
    RouteTable.builtin.dispatch ⟨opcode.laid boxes, context⟩ =
      .ok (some opcode.descriptor) next := by
  have hselects : RouteTable.Selects opcode (Machine.mk (opcode.laid boxes) context).memory
      (opcode.laid boxes) := selects_laid hl
  rw [RouteTable.dispatch_of_selects hselects]
  exact bind_of_ok hrun

theorem text_laid : (opcode.laid boxes).text =
    "[(" ++ opcode.descriptor.text ++ ")" ++
      String.join (boxes.map fun contents => ",(" ++ (Item.box contents).text ++ ")") ++ "]" := by
  have hstocked := (opcode.apart_laidUnits boxes).stocked
  rw [laid_eq hl]
  refine (Inventory.text_ofRows hstocked _).trans ?_
  simp only [List.map_map, Function.comp_def, Stack.text_ofRow_one, String.append_assoc]
  rfl

end Laid

theorem pull?_ticket (opcode : Opcode) (hs : 0 < slots) :
    (opcode.ticket slots).pull? = some (opcode.descriptor, (opcode.ticket slots).emptied) := by
  have hunits : (opcode.ticket slots).units = [opcode.descriptor] :=
    (opcode.apart_ticket).units_fill hs
  rw [Inventory.pull?_of_units hunits, Inventory.without_eq_emptied]
  rw [hunits]
  exact Nat.le_refl 1

theorem add?_ticket (opcode other : Opcode) (hs : 0 < slots) :
    (opcode.ticket slots).emptied.add? other.descriptor = some (other.ticket slots) := by
  have hall := (other.apart_ticket).addAll?_emptied opcode.apart_ticket rfl hs
  rwa [Inventory.addAll?_singleton] at hall

theorem text_ticket (opcode : Opcode) (hs : 0 < slots) :
    (opcode.ticket slots).text = "[(" ++ opcode.descriptor.text ++ ")]" := by
  have hstocked := opcode.apart_ticket.stocked
  rw [ticket, opcode.apart_ticket.fill_eq hs]
  refine (Inventory.text_ofRows hstocked _).trans ?_
  simp only [Stack.text_ofRow_one, String.append_assoc]
  rfl

theorem three_boxes {first second third : Inventory} :
    [first, second, third].length < Inventory.chestSize :=
  show 3 < 27 by decide

/-- An opcode that gives two boxes for two: its token and the next one change places. -/
theorem run_exchange (call : Call 2) (opcode next : Opcode)
    {first second first' second' : Inventory} {context context' : Context} (hs : 0 < slots)
    (horder : context'.config.restoreOrder = .resultsThenBox)
    (hf : call.function #v[.box first, .box second] context =
      .ok [.box first', .box second'] context') :
    call.run ⟨opcode.laid [first, second, next.ticket slots], context⟩ =
      .ok () ⟨next.laid [first', second', opcode.ticket slots], context'⟩ := by
  have hl := @three_boxes first second (next.ticket slots)
  have hnew : (opcode.laid [first, second, next.ticket slots]).emptied.addAll?
      (next.laidUnits [first', second', opcode.ticket slots]) =
        some (next.laid [first', second', opcode.ticket slots]) :=
    (next.apart_laidUnits _).addAll?_emptied (opcode.apart_laidUnits _) rfl hl
  refine Call.run_of_units (units_laid hl) rfl (next.pull?_ticket hs) hf
    (next.add?_ticket opcode hs) ?_
  rw [horder, Frame.units, Inventory.units_empty]
  exact hnew

end Opcode

end ChestMachine
