import ChestMachine.Proofs.Call.Restore
import ChestMachine.Proofs.Pulling

/-!
The operands of a call. Memory alone decides what becomes of them, whatever the
function is. Main statements: the arguments that are popped are always as many as
were asked for; and a call either faults over its operands, in one of five ways, or
runs its function once, on the units behind the first one, while memory is vacant.
-/
namespace ChestMachine

variable {operation : String} {n : Nat} {memory : Inventory}

/-- Pops so many units one after the other. -/
def popUnits (operation : String) : Nat → MemoryM (List Item)
  | 0 => return []
  | n + 1 => do
      let units ← popUnits operation n
      let last ← pop operation (.argument n)
      return units ++ [last]

/-- The units as exactly so many arguments; a fault names the first one missing. -/
def asArguments (operation : String) (n : Nat) (units : List Item) : MemoryM (Vector Item n) :=
  if h : units.length = n then return ⟨units.toArray, by rw [List.size_toArray, h]⟩
  else throw ⟨operation, .missingOperand (.argument units.length)⟩

theorem asArguments_toList (operation : String) (arguments : Vector Item n) :
    asArguments operation n arguments.toList = pure arguments := by
  rw [asArguments, dif_pos Vector.length_toList]
  rfl

theorem popUnits_eq (operation : String) (n : Nat) :
    popUnits operation n = (do return (← popArguments operation n).toList) := by
  induction n with
  | zero => simp only [popUnits, popArguments, pure_bind, Vector.toList_empty]
  | succ n ih => simp only [popUnits, popArguments, ih, bind_assoc, pure_bind, Vector.toList_push]

/-- The arguments are popped into a list, which is then taken as a vector. -/
theorem popArguments_eq_asArguments (operation : String) (n : Nat) :
    popArguments operation n = popUnits operation n >>= asArguments operation n := by
  simp only [popUnits_eq, bind_assoc, pure_bind, asArguments_toList, bind_pure]

theorem length_of_popUnits {units : List Item} {memory' : Inventory}
    (h : popUnits operation n memory = .ok units memory') : units.length = n := by
  simp only [popUnits_eq, bind_eq_ok_iff, pure_eq_ok_iff] at h
  obtain ⟨arguments, _, _, rfl, _⟩ := h
  exact Vector.length_toList

theorem popArguments_of_le (operation : String) (h : n ≤ memory.units.length) :
    ∃ arguments : Vector Item n, arguments.toList = memory.units.take n ∧
      popArguments operation n memory = .ok arguments (memory.without n) := by
  have hlen : (memory.units.take n).length = n := by
    rw [List.length_take, Nat.min_eq_left h]
  refine ⟨⟨(memory.units.take n).toArray, hlen⟩, rfl, popArguments_eq_ok_iff.2 ?_⟩
  exact Prod.ext (Inventory.pullMany_units n memory).1 (Inventory.snd_pullMany memory n)

theorem popArguments_of_lt (h : memory.units.length < n) :
    popArguments operation n memory =
      .error ⟨operation, .missingOperand (.argument memory.units.length)⟩ (memory.without n) := by
  induction n with
  | zero => exact absurd h (Nat.not_lt_zero _)
  | succ n ih =>
      rw [popArguments, Inventory.without_of_length_le (Nat.le_of_lt_succ h) (Nat.le_succ n)]
      by_cases hlt : memory.units.length < n
      · rw [bind_of_error (ih hlt)]
      · have heq : memory.units.length = n := by omega
        obtain ⟨arguments, _, hpop⟩ := popArguments_of_le operation (Nat.le_of_eq heq.symm)
        have hnone : (memory.without n).pull? = none := by
          rw [Inventory.pull?_eq_none_iff, Inventory.units_without]
          exact List.drop_eq_nil_of_le (Nat.le_of_eq heq)
        rw [bind_of_ok hpop, bind_of_error (pop_of_empty hnone), heq]

/-- The operand that is missing when there are so many units only. -/
def OperandSlot.after (n : Nat) : Nat → OperandSlot
  | 0 => .returnToken
  | i + 1 => if i < n then .argument i else .continuationBox

namespace OperandSlot

theorem after_eq_returnToken_iff {k : Nat} : after n k = .returnToken ↔ k = 0 := by
  cases k with
  | zero => simp [after]
  | succ i =>
      simp only [after]
      split <;> simp

theorem after_eq_argument_iff {k i : Nat} : after n k = .argument i ↔ k = i + 1 ∧ k ≤ n := by
  cases k with
  | zero => simp [after]
  | succ j =>
      simp only [after]
      split
      · simp only [argument.injEq]
        omega
      · simp only [reduceCtorEq, false_iff]
        omega

theorem after_eq_continuationBox_iff {k : Nat} : after n k = .continuationBox ↔ n + 1 ≤ k := by
  cases k with
  | zero => simp [after]
  | succ j =>
      simp only [after]
      split
      · simp only [reduceCtorEq, false_iff]
        omega
      · simp only [true_iff]
        omega

theorem after_ne_continuationToken (n k : Nat) : after n k ≠ .continuationToken := by
  cases k with
  | zero => nofun
  | succ j =>
      simp only [after]
      split <;> nofun

end OperandSlot

/-- What is wrong with these units as the operands of a call. -/
def Cause.ofUnits? (n : Nat) (units : List Item) : Option Cause :=
  match units[n + 1]? with
  | none => some (.missingOperand (.after n units.length))
  | some unit =>
      match unit.contents? with
      | none => some (.notABox .continuationBox unit.text)
      | some contents =>
          if contents.isEmpty then some (.missingOperand .continuationToken) else none

/-- Too few units are missed in the order in which they are popped. -/
theorem popOperands_of_short (h : memory.units.length ≤ n + 1) :
    popOperands operation n memory =
      .error ⟨operation, .missingOperand (.after n memory.units.length)⟩
        (memory.without (n + 2)) := by
  cases htoken : memory.pull? with
  | none =>
      have hunits := (Inventory.pull?_eq_none_iff memory).1 htoken
      rw [popOperands, bind_of_error (pop_of_empty htoken), Inventory.without_of_none htoken,
        hunits]
      rfl
  | some found =>
      obtain ⟨token, first⟩ := found
      have hunits := Inventory.units_of_pull? htoken
      rw [hunits, List.length_cons] at h ⊢
      rw [popOperands, bind_of_ok (pop_of_pull? htoken), ← Inventory.without_of_pull? htoken]
      by_cases hfew : first.units.length < n
      · rw [bind_of_error (popArguments_of_lt hfew), OperandSlot.after, if_pos hfew,
          Inventory.without_of_length_le (Nat.le_of_lt hfew) (Nat.le_succ n)]
      · have heq : first.units.length = n := by omega
        obtain ⟨arguments, _, hpop⟩ :=
          popArguments_of_le operation (Nat.le_of_eq heq.symm)
        have hnone : (first.without n).pull? = none := by
          rw [Inventory.pull?_eq_none_iff, Inventory.units_without]
          exact List.drop_eq_nil_of_le (Nat.le_of_eq heq)
        rw [bind_of_ok hpop, bind_of_error (pop_of_empty hnone), OperandSlot.after, if_neg hfew,
          Inventory.without_of_length_le (Nat.le_of_eq heq) (Nat.le_succ n)]

/-- With enough units it is the last one that matters. -/
theorem popOperands_of_getElem? (operation : String) {unit : Item}
    (h : memory.units[n + 1]? = some unit) :
    ∃ (token : Item) (arguments : Vector Item n),
      arguments.toList = (memory.units.drop 1).take n ∧
      popOperands operation n memory = (do
        let box ← openBox operation .continuationBox unit
        let (nextToken, box) ← pullOrFault operation .continuationToken box
        let saved ← saveMemory operation
        return ⟨token, arguments, box, nextToken, saved⟩ : MemoryM (Operands n))
          (memory.without (n + 2)) := by
  cases htoken : memory.pull? with
  | none =>
      rw [(Inventory.pull?_eq_none_iff memory).1 htoken] at h
      cases h
  | some found =>
      obtain ⟨token, first⟩ := found
      have hunits := Inventory.units_of_pull? htoken
      rw [hunits, List.getElem?_cons_succ] at h
      obtain ⟨hlt, hunit⟩ := List.getElem?_eq_some_iff.1 h
      obtain ⟨arguments, hargs, hpop⟩ :=
        popArguments_of_le operation (Nat.le_of_lt hlt)
      have hlast : (first.without n).units = unit :: (first.without (n + 1)).units := by
        rw [Inventory.units_without, Inventory.units_without, ← hunit]
        exact List.drop_eq_getElem_cons hlt
      obtain ⟨rest, hbox⟩ : ∃ rest, (first.without n).pull? = some (unit, rest) := by
        cases hp : (first.without n).pull? with
        | none =>
            rw [(Inventory.pull?_eq_none_iff _).1 hp] at hlast
            cases hlast
        | some found =>
            rw [Inventory.units_of_pull? hp] at hlast
            exact ⟨found.2, congrArg some (Prod.ext (List.cons.inj hlast).1 rfl)⟩
      have hrest : rest = memory.without (n + 2) := by
        rw [← Inventory.without_of_pull? htoken, ← Inventory.without_without first n 1,
          ← Inventory.without_of_pull? hbox, Inventory.without_zero]
      refine ⟨token, arguments, ?_, ?_⟩
      · rw [hargs, hunits]
        rfl
      · rw [popOperands, bind_of_ok (pop_of_pull? htoken), bind_of_ok hpop,
          bind_of_ok (pop_of_pull? hbox), hrest]

theorem Cause.ofUnits?_eq_missing_iff {units : List Item} {slot : OperandSlot}
    (hslot : slot ≠ .continuationToken) :
    ofUnits? n units = some (.missingOperand slot) ↔
      units.length ≤ n + 1 ∧ .after n units.length = slot := by
  unfold ofUnits?
  split
  · rename_i hnone
    simp only [Option.some.injEq, Cause.missingOperand.injEq, List.getElem?_eq_none_iff.1 hnone,
      true_and]
  · rename_i unit hunit
    have hlt := (List.getElem?_eq_some_iff.1 hunit).1
    have hmany : ¬ units.length ≤ n + 1 := Nat.not_le_of_lt hlt
    simp only [hmany, false_and, iff_false]
    split
    · nofun
    · split
      · intro heq
        cases heq
        exact hslot rfl
      · nofun

theorem Cause.ofUnits?_eq_notABox_iff {units : List Item} {text : String} :
    ofUnits? n units = some (.notABox .continuationBox text) ↔
      ∃ unit, units[n + 1]? = some unit ∧ unit.contents? = none ∧ text = unit.text := by
  unfold ofUnits?
  split
  · rename_i hnone
    simp [hnone]
  · rename_i unit hunit
    simp only [hunit, Option.some.injEq, exists_eq_left']
    split
    · rename_i hplain
      simp [hplain, eq_comm]
    · rename_i contents hcontents
      simp only [hcontents, reduceCtorEq, false_and, iff_false]
      split <;> nofun

theorem Cause.ofUnits?_eq_noToken_iff {units : List Item} :
    ofUnits? n units = some (.missingOperand .continuationToken) ↔
      ∃ unit contents, units[n + 1]? = some unit ∧ unit.contents? = some contents ∧
        contents.isEmpty := by
  unfold ofUnits?
  split
  · rename_i hnone
    simp only [hnone, reduceCtorEq, false_and, exists_false, iff_false, Option.some.injEq,
      Cause.missingOperand.injEq]
    exact OperandSlot.after_ne_continuationToken n _
  · rename_i unit hunit
    simp only [hunit, Option.some.injEq, exists_and_left, exists_eq_left']
    split
    · rename_i hplain
      simp [hplain]
    · rename_i contents hcontents
      simp [hcontents]

theorem popOperands_of_ofUnits? {cause : Cause} (h : Cause.ofUnits? n memory.units = some cause) :
    popOperands operation n memory = .error ⟨operation, cause⟩ (memory.without (n + 2)) := by
  unfold Cause.ofUnits? at h
  split at h
  · rename_i hnone
    cases h
    exact popOperands_of_short (List.getElem?_eq_none_iff.1 hnone)
  · rename_i unit hunit
    obtain ⟨token, arguments, _, hpop⟩ := popOperands_of_getElem? operation hunit
    rw [hpop, openBox_eq_orThrow]
    split at h
    · rename_i hplain
      cases h
      rw [hplain]
      rfl
    · rename_i contents hcontents
      split at h
      · rename_i hempty
        cases h
        have hnone := (Inventory.pull?_eq_none_iff _).2 ((Inventory.isEmpty_iff _).1 hempty)
        rw [hcontents, bind_of_ok (orThrow_eq_ok_iff.2 ⟨rfl, rfl⟩), pullOrFault_eq_orThrow, hnone]
        rfl
      · cases h

theorem popOperands_of_none (operation : String) {rule : Item → Bool} (hm : memory.obeys rule)
    (h : Cause.ofUnits? n memory.units = none) :
    ∃ operands : Operands n, operands.arguments.toList = (memory.units.drop 1).take n ∧
      popOperands operation n memory = .ok operands (memory.without (n + 2)).drained := by
  unfold Cause.ofUnits? at h
  split at h
  · cases h
  · rename_i unit hunit
    obtain ⟨token, arguments, hargs, hpop⟩ := popOperands_of_getElem? operation hunit
    split at h
    · cases h
    · rename_i contents hcontents
      split at h
      · cases h
      · rename_i hfull
        obtain ⟨⟨next, opened⟩, hnext⟩ : ∃ found, contents.pull? = some found := by
          rw [← Option.ne_none_iff_exists']
          intro hnone
          exact hfull ((Inventory.isEmpty_iff _).2 ((Inventory.pull?_eq_none_iff _).1 hnone))
        have hrest : (memory.without (n + 2)).obeys rule := by
          rw [← Inventory.snd_pullMany]
          exact (Inventory.obeys_pullMany hm (n + 2)).2
        refine ⟨⟨token, arguments, opened, next, (memory.without (n + 2)).repacked⟩, hargs, ?_⟩
        rw [hpop, openBox_eq_orThrow, bind_of_ok (orThrow_eq_ok_iff.2 ⟨hcontents, rfl⟩),
          pullOrFault_eq_orThrow, bind_of_ok (orThrow_eq_ok_iff.2 ⟨hnext, rfl⟩)]
        exact bind_of_ok (saveMemory_of_obeys operation hrest)

theorem Inventory.isEmpty_drained {rule : Item → Bool} (h : memory.obeys rule) :
    memory.drained.isEmpty :=
  isComplete_transfer_none (repacked_spec h).1

theorem popOperands_ne_savedStateFull {rule : Item → Bool} (h : memory.obeys rule)
    (memory' : Inventory) :
    popOperands operation n memory ≠ .error (savedStateFull operation) memory' := by
  intro he
  cases faultsAs_popOperands h operation n _ _ he

namespace Call

variable {name : String} {machine : Machine}

/-- The call faults before it gets to its function, whatever that is; the context stays. -/
def Rejects (name : String) (n : Nat) (machine : Machine) (cause : Cause) (memory : Inventory) :
    Prop :=
  ∀ function : Vector Item n → ContextM (List Item),
    run ⟨name, function⟩ machine = .error ⟨name, cause⟩ ⟨memory, machine.context⟩

/-- The call runs its function, whatever that is, on these arguments, with this memory. -/
structure Invokes (name : String) (machine : Machine) (arguments : Vector Item n)
    (memory : Inventory) : Prop where
  /-- What follows depends on the results only, so that the function is run once. -/
  once : ∃ resume : List Item → MachineM Unit, ∀ function,
    run ⟨name, function⟩ machine =
      (onContext (function arguments) >>= resume) ⟨memory, machine.context⟩
  fault : ∀ {function fault context}, function arguments machine.context = .error fault context →
    run ⟨name, function⟩ machine = .error fault ⟨memory, context⟩
  /-- Once the function has returned, a call can only find a container full. -/
  full : ∀ {function results context fault stopped},
    function arguments machine.context = .ok results context →
      run ⟨name, function⟩ machine = .error fault stopped →
        ∃ text, fault = ⟨name, .containerFull text⟩

theorem invokes_of_popOperands {operands : Operands n}
    (h : popOperands name n machine.memory = .ok operands memory) :
    Invokes name machine operands.arguments memory := by
  let resume : List Item → MachineM Unit := fun results => do
    let box ← addOrFault name operands.box operands.returnToken
    let order := (← get).context.config.restoreOrder
    let frame : Frame := ⟨operands.nextToken, operands.saved, .box box, results⟩
    onMemory (frame.restore name order)
  have hrun : ∀ function, run ⟨name, function⟩ machine =
      (onContext (function operands.arguments) >>= resume) ⟨memory, machine.context⟩ := by
    intro function
    have hpop : onMemory (popOperands name n) machine =
        .ok operands ⟨memory, machine.context⟩ := onMemory_eq_ok_iff.2 ⟨h, rfl⟩
    exact bind_of_ok hpop
  refine ⟨⟨resume, hrun⟩, ?_, ?_⟩
  · intro function fault context hf
    rw [hrun]
    exact bind_of_error (onContext_eq_error_iff.2 ⟨hf, rfl⟩)
  · intro function results context fault stopped hok he
    have hresults : onContext (function operands.arguments) ⟨memory, machine.context⟩ =
        .ok results ⟨memory, context⟩ := onContext_eq_ok_iff.2 ⟨hok, rfl⟩
    rw [hrun, bind_of_ok hresults] at he
    have hall : FaultsAs (fun fault => ∃ text, fault = ⟨name, .containerFull text⟩)
        (resume results) ⟨memory, context⟩ := by
      simp only [resume, addOrFault_eq_orThrow]
      refine .orThrow_bind (fun _ => ⟨_, rfl⟩) ?_
      intro closed _ fault last hlast
      exact Frame.restore_error (onMemory_eq_error_iff.1 hlast).1
    exact hall fault stopped he

theorem rejects_iff {rule : Item → Bool} (h : machine.memory.obeys rule) {cause : Cause} :
    Rejects name n machine cause memory ↔
      Cause.ofUnits? n machine.memory.units = some cause ∧
        memory = machine.memory.without (n + 2) := by
  cases hcause : Cause.ofUnits? n machine.memory.units with
  | some found =>
      have hrun : ∀ function : Vector Item n → ContextM (List Item),
          run ⟨name, function⟩ machine =
            .error ⟨name, found⟩ ⟨machine.memory.without (n + 2), machine.context⟩ := by
        intro function
        exact bind_of_error (onMemory_eq_error_iff.2 ⟨popOperands_of_ofUnits? hcause, rfl⟩)
      constructor
      · intro hr
        have := (hrun fun _ => pure []).symm.trans (hr fun _ => pure [])
        simp only [EStateM.Result.error.injEq, Fault.mk.injEq, Machine.mk.injEq, true_and,
          and_true] at this
        exact ⟨congrArg some this.1, this.2.symm⟩
      · rintro ⟨heq, rfl⟩
        cases heq
        exact hrun
  | none =>
      refine ⟨?_, nofun⟩
      intro hr
      obtain ⟨operands, _, hpop⟩ := popOperands_of_none name h hcause
      have hinvoked := invokes_of_popOperands hpop
      -- two functions that fault differently cannot both be kept from their fault
      have hfault : ∀ fault : Fault, fault = ⟨name, cause⟩ := by
        intro fault
        have hrun : run ⟨name, fun _ => throw fault⟩ machine =
            .error fault ⟨_, machine.context⟩ := hinvoked.fault rfl
        rw [hr] at hrun
        exact (EStateM.Result.error.inj hrun).1.symm
      have hboth :=
        (hfault ⟨name, .missingOperand .key⟩).trans (hfault ⟨name, .keyNotFound ""⟩).symm
      cases hboth

/-- What a call does about its operands, by the units of memory in scan order. -/
structure TakesOperands (name : String) (n : Nat) (machine : Machine) : Prop where
  returnToken : ∀ memory, Rejects name n machine (.missingOperand .returnToken) memory ↔
    machine.memory.units.length = 0 ∧ memory = machine.memory.without (n + 2)
  argument : ∀ i memory, Rejects name n machine (.missingOperand (.argument i)) memory ↔
    (machine.memory.units.length = i + 1 ∧ machine.memory.units.length ≤ n) ∧
      memory = machine.memory.without (n + 2)
  continuationBox : ∀ memory, Rejects name n machine (.missingOperand .continuationBox) memory ↔
    machine.memory.units.length = n + 1 ∧ memory = machine.memory.without (n + 2)
  notABox : ∀ text memory, Rejects name n machine (.notABox .continuationBox text) memory ↔
    (∃ unit, machine.memory.units[n + 1]? = some unit ∧ unit.contents? = none ∧
      text = unit.text) ∧ memory = machine.memory.without (n + 2)
  continuationToken : ∀ memory,
    Rejects name n machine (.missingOperand .continuationToken) memory ↔
      (∃ unit contents, machine.memory.units[n + 1]? = some unit ∧
        unit.contents? = some contents ∧ contents.isEmpty) ∧
          memory = machine.memory.without (n + 2)
  /-- Where an operand is missing, memory has given all its units. -/
  vacant : machine.memory.units.length ≤ n + 1 → (machine.memory.without (n + 2)).isEmpty
  invokes : ∀ unit contents, machine.memory.units[n + 1]? = some unit →
    unit.contents? = some contents → contents.isEmpty = false →
      ∃ (arguments : Vector Item n) (memory : Inventory),
        arguments.toList = (machine.memory.units.drop 1).take n ∧ memory.isEmpty ∧
          Invokes name machine arguments memory
  /-- The arguments are popped into a list, and that has the length of a vector of them. -/
  arranges : popArguments name n = popUnits name n >>= asArguments name n ∧
    ∀ before after units, popUnits name n before = .ok units after →
      ∃ arguments, asArguments name n units after = .ok arguments after
  saves : ∀ memory, popOperands name n machine.memory ≠ .error (savedStateFull name) memory

theorem takesOperands (name : String) (n : Nat) (h : machine.memory.Sound) :
    TakesOperands name n machine where
  returnToken := by
    intro memory
    rw [rejects_iff h, Cause.ofUnits?_eq_missing_iff (by decide),
      OperandSlot.after_eq_returnToken_iff]
    refine and_congr_left' ⟨fun hk => hk.2, ?_⟩
    intro hzero
    exact ⟨by omega, hzero⟩
  argument := by
    intro i memory
    rw [rejects_iff h, Cause.ofUnits?_eq_missing_iff (by simp),
      OperandSlot.after_eq_argument_iff]
    refine and_congr_left' ⟨fun hk => hk.2, ?_⟩
    intro hk
    exact ⟨by omega, hk⟩
  continuationBox := by
    intro memory
    rw [rejects_iff h, Cause.ofUnits?_eq_missing_iff (by decide),
      OperandSlot.after_eq_continuationBox_iff, ← Nat.le_antisymm_iff]
  notABox := by
    intro text memory
    rw [rejects_iff h, Cause.ofUnits?_eq_notABox_iff]
  continuationToken := by
    intro memory
    rw [rejects_iff h, Cause.ofUnits?_eq_noToken_iff]
  vacant := by
    intro hfew
    rw [Inventory.isEmpty_iff, Inventory.units_without]
    exact List.drop_eq_nil_of_le (Nat.le_succ_of_le hfew)
  invokes := by
    intro unit contents hunit hcontents hfull
    have hnone : Cause.ofUnits? n machine.memory.units = none := by
      simp only [Cause.ofUnits?, hunit, hcontents, hfull, Bool.false_eq_true, if_false]
    obtain ⟨operands, hargs, hpop⟩ := popOperands_of_none name h hnone
    refine ⟨operands.arguments, _, hargs, ?_, invokes_of_popOperands hpop⟩
    apply Inventory.isEmpty_drained
    rw [← Inventory.snd_pullMany]
    exact (Inventory.obeys_pullMany h (n + 2)).2
  arranges := by
    refine ⟨popArguments_eq_asArguments name n, ?_⟩
    intro before after units hpop
    have hlen := length_of_popUnits hpop
    exact ⟨_, by rw [asArguments, dif_pos hlen]; rfl⟩
  saves := popOperands_ne_savedStateFull h

/-- One slot holds the return token and both arguments. -/
def straddled : Machine :=
  ⟨(Inventory.empty 3).fill [.ofKind "a", .ofKind "a", .ofKind "a",
    .box ((Inventory.empty 1).fill [.ofKind "t"])], .ofConfig .standard⟩

theorem straddled_takesOperands :
    straddled.memory.Sound ∧ TakesOperands "op" 2 straddled :=
  ⟨rfl, takesOperands "op" 2 rfl⟩

end Call
end ChestMachine
