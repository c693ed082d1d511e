import ChestMachine.Proofs.Call.Conservation
import ChestMachine.Proofs.Context

/-!
Calls that keep a rule. Main statement: if the function makes lawful results
and a lawful context out of lawful ones, a call that succeeds leaves a lawful
machine behind.
-/
namespace ChestMachine

variable {rule : Item → Bool}

/-- Memory and context obey the rule. -/
structure Machine.Obeys (rule : Item → Bool) (machine : Machine) : Prop where
  memory : machine.memory.obeys rule
  context : machine.context.Obeys rule

structure Frame.Obeys (rule : Item → Bool) (frame : Frame) : Prop where
  nextToken : frame.nextToken.obeys rule
  saved : frame.saved.obeys rule
  box : frame.box.obeys rule
  results : ∀ result ∈ frame.results, result.obeys rule

namespace Frame.Obeys

variable {frame : Frame} {operation : String} {order : RestoreOrder}
  {memory memory' : Inventory}

theorem front (h : frame.Obeys rule) (order : RestoreOrder) :
    ∀ unit ∈ frame.front order, unit.obeys rule := by
  have hnext := h.nextToken
  have hbox := h.box
  cases order <;> simp [Frame.front, hnext, hbox]

theorem back (h : frame.Obeys rule) (order : RestoreOrder) :
    ∀ unit ∈ frame.back order, unit.obeys rule := by
  intro unit hu
  have : unit ∈ frame.results ∨ unit = frame.box := by
    cases order <;> simp only [Frame.back, List.mem_cons, List.mem_append, List.not_mem_nil,
      or_false] at hu
    · exact hu.symm
    · exact Or.inl hu
    · exact hu
  cases this with
  | inl hr => exact h.results unit hr
  | inr hb =>
      rw [hb]
      exact h.box

theorem restore (h : frame.Obeys rule) (hm : memory.obeys rule)
    (hr : frame.restore operation order memory = .ok () memory') : memory'.obeys rule := by
  obtain ⟨ahead, hfront, _, hback⟩ := restore_eq_ok_iff.1 hr
  have hahead := Inventory.obeys_addAll? hm (h.front order) hfront
  have hpoured : (ahead.fill frame.saved.units).obeys rule := by
    apply Inventory.obeys_fill hahead
    intro unit hu
    exact (Inventory.obeys_units h.saved unit hu).1
  exact Inventory.obeys_addAll? hpoured (h.back order) hback

end Frame.Obeys

namespace Call

variable {n : Nat} {call : Call n} {machine machine' : Machine}

def Keeps (rule : Item → Bool) (call : Call n) : Prop :=
  ∀ {arguments context results after}, (∀ argument ∈ arguments, argument.obeys rule) →
    context.Obeys rule → call.function arguments context = .ok results after →
      (∀ result ∈ results, result.obeys rule) ∧ after.Obeys rule

theorem Prepared.kept (p : call.Prepared machine) (hk : call.Keeps rule)
    (h : machine.Obeys rule) :
    (∀ result ∈ p.results, result.obeys rule) ∧ p.context.Obeys rule := by
  apply hk _ h.context p.function_ok
  intro argument ha
  apply (p.pulled_obeys h.memory argument _).1
  simp [Vector.mem_toList_iff.2 ha]

theorem Prepared.frame_obeys (p : call.Prepared machine) (hk : call.Keeps rule)
    (hbox : ∀ contents, rule (.box contents)) (h : machine.Obeys rule) : p.frame.Obeys rule where
  nextToken := (p.next_obeys h.memory).1.1
  saved := Inventory.obeys_repacked (p.rest_obeys h.memory)
  box := Item.obeys_box (p.closed_obeys h.memory) (hbox _)
  results := (p.kept hk h).1

theorem run_obeys (hk : call.Keeps rule) (hbox : ∀ contents, rule (.box contents))
    (h : machine.Obeys rule) (hr : call.run machine = .ok () machine') :
    machine'.Obeys rule := by
  obtain ⟨p, hcontext, hrestore⟩ := (run_eq_ok_iff h.memory).1 hr
  have hvacant : p.reached.memory.obeys rule :=
    (Inventory.obeys_transfer (p.rest_obeys h.memory) (Inventory.obeys_empty _) none).1
  refine ⟨(p.frame_obeys hk hbox h).restore hvacant hrestore, ?_⟩
  rw [hcontext]
  exact (p.kept hk h).2

end Call
end ChestMachine
