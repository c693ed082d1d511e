import ChestMachine.Builtin
import ChestMachine.Proofs.Builtin.Boxes

/-!
Operations that neither look at the cap on dispatches nor set it. Main statements: such an
effect does the same when the cap is changed first; this goes through sequences of effects
and through calls; and so all opcodes of the built-in table are operations of this kind.
-/
namespace ChestMachine

section Commutes

variable {ε σ α β : Type} {f : σ → σ}

/-- The same result, from a state that was changed. -/
def mapState (f : σ → σ) : EStateM.Result ε σ α → EStateM.Result ε σ α
  | .ok value state => .ok value (f state)
  | .error fault state => .error fault (f state)

/-- Whether the state is changed before the effect or after it makes no difference. -/
def CommutesWith (f : σ → σ) (x : EStateM ε σ α) : Prop :=
  ∀ s, x (f s) = mapState f (x s)

namespace CommutesWith

theorem pure (value : α) : CommutesWith f (pure value : EStateM ε σ α) := fun _ => rfl

theorem bind {x : EStateM ε σ α} {k : α → EStateM ε σ β} (hx : CommutesWith f x)
    (hk : ∀ a, CommutesWith f (k a)) : CommutesWith f (x >>= k) := by
  intro s
  have hfirst := hx s
  cases h : x s with
  | error fault t =>
      rw [h] at hfirst
      rw [bind_of_error hfirst, bind_of_error h]
      rfl
  | ok a t =>
      rw [h] at hfirst
      rw [bind_of_ok hfirst, bind_of_ok h]
      exact hk a t

theorem orThrow (found : Option α) (e : ε) :
    CommutesWith f (orThrow found e : EStateM ε σ α) := by
  cases found <;> exact fun _ => rfl

theorem mapM {g : α → EStateM ε σ β} (hg : ∀ a, CommutesWith f (g a)) (items : List α) :
    CommutesWith f (items.mapM g) := by
  induction items with
  | nil => exact pure []
  | cons a rest ih =>
      rw [List.mapM_cons]
      exact bind (hg a) fun b => bind ih fun bs => pure (b :: bs)

end CommutesWith
end Commutes

/-- The context with another cap on the dispatches of a run. -/
def Context.withCap (cap : UInt64) (context : Context) : Context :=
  { context with config := { context.config with maxIterations := cap } }

def Machine.withCap (cap : UInt64) (machine : Machine) : Machine :=
  { machine with context := machine.context.withCap cap }

section Builtins

variable (cap : UInt64)

theorem commutesWith_warn (warning : Warning) :
    CommutesWith (Context.withCap cap) (warn warning) := fun _ => rfl

theorem commutesWith_takeEntry (operation : String) (key : Item) :
    CommutesWith (Context.withCap cap) (Builtin.takeEntry operation key) := by
  intro context
  rw [Builtin.takeEntry_eq, Builtin.takeEntry_eq]
  have hstore : (context.withCap cap).store = context.store := rfl
  rw [hstore]
  cases context.store.find? key <;> rfl

theorem commutesWith_fetch (arguments : Vector Item 2) :
    CommutesWith (Context.withCap cap) (Builtin.fetch arguments) := by
  simp only [Builtin.fetch, openBox_eq_orThrow, pullOrFault_eq_orThrow, addOrFault_eq_orThrow]
  refine .bind (.orThrow _ _) fun items => ?_
  refine .bind (.orThrow _ _) fun keys => ?_
  refine .bind (.orThrow _ _) ?_
  rintro ⟨key, rest⟩
  refine .bind (commutesWith_takeEntry cap _ key) fun entry => ?_
  refine .bind (.orThrow _ _) fun once => ?_
  refine .bind (.orThrow _ _) fun twice => ?_
  split
  · exact .bind (commutesWith_warn cap _) fun _ => .pure _
  · exact .pure _

theorem commutesWith_deposit (arguments : Vector Item 2) :
    CommutesWith (Context.withCap cap) (Builtin.deposit arguments) := by
  simp only [Builtin.deposit, openBox_eq_orThrow, pullOrFault_eq_orThrow]
  refine .bind (.orThrow _ _) fun items => ?_
  refine .bind (.orThrow _ _) fun keys => ?_
  refine .bind (.orThrow _ _) ?_
  rintro ⟨key, rest⟩
  refine .bind (fun _ => rfl) fun transfer => ?_
  split
  · exact .bind (commutesWith_warn cap _) fun _ => .pure _
  · exact .pure _

theorem commutesWith_smeltUnit (operation : String) (unit : Item) :
    CommutesWith (Context.withCap cap) (Builtin.smeltUnit operation unit) := by
  intro context
  rw [Builtin.smeltUnit_eq_orThrow, Builtin.smeltUnit_eq_orThrow]
  exact CommutesWith.orThrow _ _ context

theorem commutesWith_smelt (arguments : Vector Item 1) :
    CommutesWith (Context.withCap cap) (Builtin.smelt arguments) := by
  simp only [Builtin.smelt, openBox_eq_orThrow]
  refine .bind (.orThrow _ _) fun items => ?_
  refine .bind (.mapM (commutesWith_smeltUnit cap _) _) fun products => ?_
  split
  · exact .bind (commutesWith_warn cap _) fun _ => .pure _
  · exact .pure _

theorem commutesWith_addAllOrFault (operation : String) (items : List Item) (target : Inventory) :
    CommutesWith (Context.withCap cap) (Builtin.addAllOrFault operation items target) := by
  induction items generalizing target with
  | nil => exact .pure target
  | cons item rest ih =>
      rw [Builtin.addAllOrFault, addOrFault_eq_orThrow]
      exact .bind (.orThrow _ _) ih

theorem commutesWith_permute (arguments : Vector Item 27) :
    CommutesWith (Context.withCap cap) (Builtin.permute arguments) := by
  simp only [Builtin.permute, openBox_eq_orThrow]
  refine .bind (.orThrow _ _) fun keys => ?_
  refine .bind (commutesWith_addAllOrFault cap _ _ _) fun pool => ?_
  exact fun _ => rfl

theorem commutesWith_function (opcode : Opcode) (arguments : Vector Item opcode.arity) :
    CommutesWith (Context.withCap cap) (opcode.function arguments) := by
  cases opcode with
  | get => exact commutesWith_fetch cap arguments
  | set => exact commutesWith_deposit cap arguments
  | smelt => exact commutesWith_smelt cap arguments
  | permute => exact commutesWith_permute cap arguments

end Builtins

section Machines

variable {α : Type} (cap : UInt64)

theorem commutesWith_onMemory (effect : MemoryM α) :
    CommutesWith (Machine.withCap cap) (onMemory effect) := by
  intro machine
  have hmemory : (machine.withCap cap).memory = machine.memory := rfl
  simp only [onMemory, hmemory]
  cases effect machine.memory <;> rfl

theorem commutesWith_onContext {effect : ContextM α}
    (h : CommutesWith (Context.withCap cap) effect) :
    CommutesWith (Machine.withCap cap) (onContext effect) := by
  intro machine
  have hcontext : (machine.withCap cap).context = machine.context.withCap cap := rfl
  simp only [onContext, hcontext, h machine.context]
  cases effect machine.context <;> rfl

theorem commutesWith_call {n : Nat} {call : Call n}
    (h : ∀ arguments, CommutesWith (Context.withCap cap) (call.function arguments)) :
    CommutesWith (Machine.withCap cap) call.run := by
  simp only [Call.run, addOrFault_eq_orThrow]
  refine .bind (commutesWith_onMemory cap _) fun operands => ?_
  refine .bind (commutesWith_onContext cap (h operands.arguments)) fun results => ?_
  refine .bind (.orThrow _ _) fun box => ?_
  -- the restore order is read here, which is not the cap
  intro machine
  exact commutesWith_onMemory cap _ machine

end Machines

/-- The operation leaves the configuration as it was, also when it faults. It may look at it. -/
def Operation.LeavesConfig (operation : Operation) : Prop :=
  ∀ machine, match operation.run machine with
    | .ok _ after | .error _ after => after.context.config = machine.context.config

/-- The operation neither looks at the cap on dispatches nor sets it. -/
def Operation.IgnoresCap (operation : Operation) : Prop :=
  ∀ cap, CommutesWith (Machine.withCap cap) operation.run

namespace RouteTable

/-- Nor does any operation of the table. -/
def IgnoresCap (table : RouteTable) : Prop :=
  ∀ route ∈ table, route.operation.IgnoresCap

def LeavesConfig (table : RouteTable) : Prop :=
  ∀ route ∈ table, route.operation.LeavesConfig

theorem builtin_ignoresCap : builtin.IgnoresCap := by
  intro route hroute
  obtain ⟨opcode, _, rfl⟩ := List.mem_map.1 hroute
  exact fun cap => commutesWith_call cap (commutesWith_function cap opcode)

theorem commutesWith_dispatch {table : RouteTable} (h : table.IgnoresCap) (cap : UInt64) :
    CommutesWith (Machine.withCap cap) table.dispatch := by
  rw [dispatch]
  refine .bind (commutesWith_onMemory cap _) fun found => ?_
  cases found with
  | none => exact .pure none
  | some index => exact .bind (h _ (List.getElem_mem _) cap) fun _ => .pure _

end RouteTable
end ChestMachine
