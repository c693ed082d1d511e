import ChestMachine.Proofs.Builtin.Faults

/-!
Fetching and depositing under keys. Main statements: what a call answers, and the entry
that it leaves, depend on its arguments and on the entry under its key alone; nothing is
changed under other keys; so, in a sequence of calls, those under one key go as they
would without the others.
-/
namespace ChestMachine

/-- A call of one of the two opcodes on the store. -/
inductive StoreCall where
  | fetch (arguments : Vector Item 2)
  | deposit (arguments : Vector Item 2)

namespace StoreCall

/-- What the caller gets: the boxes or the fault, and the warnings. -/
structure Reply where
  returned : Except Fault (List Item)
  warnings : List Warning

/-- What a call reads from its arguments. -/
structure Operands where
  items : Inventory
  key : Item
  /-- The key box without the key. -/
  keys : Inventory

def perform : StoreCall → ContextM (List Item)
  | fetch arguments => Builtin.fetch arguments
  | deposit arguments => Builtin.deposit arguments

/-- The reply to a call, with the warnings that the call has added, and the context after
it. -/
def run (call : StoreCall) (context : Context) : Reply × Context :=
  match call.perform context with
  | .ok results after => (⟨.ok results, after.warnings.drop context.warnings.length⟩, after)
  | .error fault after => (⟨.error fault, after.warnings.drop context.warnings.length⟩, after)

/-- Each call with its reply, and the context after the last one. -/
def runAll : List StoreCall → Context → List (StoreCall × Reply) × Context
  | [], context => ([], context)
  | call :: rest, context =>
      let (reply, after) := call.run context
      let (replies, last) := runAll rest after
      ((call, reply) :: replies, last)

def itemBox (arguments : Vector Item 2) : Item :=
  arguments.get ⟨0, Nat.two_pos⟩

def keyBox (arguments : Vector Item 2) : Item :=
  arguments.get ⟨1, Nat.one_lt_two⟩

/-- Both arguments have to be boxes, and the first unit of the second one is the key. -/
def operandsOf (operation : String) (itemBox keyBox : Item) : Except Fault Operands :=
  match itemBox.contents?, keyBox.contents? with
  | none, _ => .error ⟨operation, .notABox (.argument 0) itemBox.text⟩
  | some _, none => .error ⟨operation, .notABox (.argument 1) keyBox.text⟩
  | some items, some keys =>
      match keys.pull? with
      | none => .error ⟨operation, .missingOperand .key⟩
      | some (key, keys) => .ok ⟨items, key, keys⟩

def operands : StoreCall → Except Fault Operands
  | fetch arguments => operandsOf Opcode.get.name (itemBox arguments) (keyBox arguments)
  | deposit arguments => operandsOf Opcode.set.name (itemBox arguments) (keyBox arguments)

/-- The key that the call pulls, when it gets so far. -/
def key? (call : StoreCall) : Option Item :=
  call.operands.toOption.map (·.key)

def pulls (call : StoreCall) (key : Item) : Bool :=
  call.key?.any (· == key)

def isDeposit : StoreCall → Bool
  | fetch _ => false
  | deposit _ => true

/-- How a call ends: its reply, and the entry under its key. -/
structure Ending where
  reply : Reply
  entry : Option Inventory

/-- The end of a fetch that finds this entry. -/
def endFetch (operands : Operands) : Option Inventory → Ending
  | none => ⟨⟨.error ⟨Opcode.get.name, .keyNotFound operands.key.text⟩, []⟩, none⟩
  | some entry =>
      match operands.keys.addAll? [operands.key, operands.key] with
      | none => ⟨⟨.error ⟨Opcode.get.name, .containerFull operands.key.text⟩, []⟩, none⟩
      | some twice =>
          let delivery := Inventory.deliver entry.units operands.items
          ⟨⟨.ok [.box delivery.target, .box twice],
            if 0 < delivery.refused then
              [.itemBoxOverflowed operands.key.text delivery.refused] else []⟩, none⟩

/-- The end of a deposit that finds this entry. -/
def endDeposit (operands : Operands) (entry : Option Inventory) : Ending :=
  let transfer := operands.items.transfer (entry.getD .chest) none
  ⟨⟨.ok [.box transfer.source, .box operands.keys],
    if !transfer.isComplete then
      [.entryFull operands.key.text transfer.source.totalCount] else []⟩, some transfer.target⟩

def ending : StoreCall → Operands → Option Inventory → Ending
  | fetch _ => endFetch
  | deposit _ => endDeposit

/-- The context that the ending of a call under a key leaves. -/
def Ending.after (ending : Ending) (key : Item) (context : Context) : Context :=
  { context with
    store := context.store.assign key ending.entry
    warnings := context.warnings ++ ending.reply.warnings }

/-- The result of an effect that ends so. -/
def Ending.result (ending : Ending) (key : Item) (context : Context) :
    EStateM.Result Fault Context (List Item) :=
  match ending.reply.returned with
  | .ok results => .ok results (ending.after key context)
  | .error fault => .error fault (ending.after key context)

variable {call : StoreCall} {context other : Context} {operands : Operands} {key : Item}
  {arguments : Vector Item 2} {fault : Fault}

/-- An effect on the operands goes on with them, or it stops where they give a fault. -/
theorem bind_operandsOf {α : Type} (operation : String) (itemBox keyBox : Item)
    (effect : Inventory → Item × Inventory → ContextM α) :
    (do
      let items ← openBox operation (.argument 0) itemBox
      let keys ← openBox operation (.argument 1) keyBox
      pullOrFault operation .key keys >>= effect items) context =
    match operandsOf operation itemBox keyBox with
    | .error fault => .error fault context
    | .ok operands => effect operands.items (operands.key, operands.keys) context := by
  simp only [openBox_eq_orThrow, pullOrFault_eq_orThrow, operandsOf]
  cases itemBox.contents? with
  | none => rfl
  | some items =>
      cases keyBox.contents? with
      | none => rfl
      | some keys =>
          refine (bind_of_ok (orThrow_eq_ok_iff.2 ⟨rfl, rfl⟩)).trans ?_
          refine (bind_of_ok (orThrow_eq_ok_iff.2 ⟨rfl, rfl⟩)).trans ?_
          dsimp only
          cases keys.pull? <;> rfl

/-- A call without operands leaves everything as it is. -/
theorem perform_of_error (h : call.operands = .error fault) :
    call.perform context = .error fault context := by
  cases call with
  | fetch arguments =>
      have hoperands : operandsOf Opcode.get.name (itemBox arguments) (keyBox arguments) =
          .error fault := h
      refine (bind_operandsOf Opcode.get.name (itemBox arguments) (keyBox arguments) _).trans ?_
      rw [hoperands]
  | deposit arguments =>
      have hoperands : operandsOf Opcode.set.name (itemBox arguments) (keyBox arguments) =
          .error fault := h
      refine (bind_operandsOf Opcode.set.name (itemBox arguments) (keyBox arguments) _).trans ?_
      rw [hoperands]

/-- The key goes into its box twice, or it does not go in at all. -/
theorem bind_addTwice {α : Type} (operation : String) (key : Item) (keys : Inventory)
    (effect : Inventory → ContextM α) :
    (do
      let once ← addOrFault operation keys key
      addOrFault operation once key >>= effect) context =
    match keys.addAll? [key, key] with
    | none => .error ⟨operation, .containerFull key.text⟩ context
    | some twice => effect twice context := by
  simp only [addOrFault_eq_orThrow, Inventory.addAll?_cons]
  cases keys.add? key with
  | none => rfl
  | some once => cases honce : once.add? key <;> simp [orThrow, honce] <;> rfl

theorem Ending.result_of_idle {ending : Ending} (hfault : ending.reply = ⟨.error fault, []⟩)
    (hentry : ending.entry = none) (hfind : context.store.find? key = none) :
    ending.result key context = .error fault context := by
  have hafter : ending.after key context = context := by
    have herase := ItemMap.erase_of_find?_eq_none hfind
    simp only [after, hfault, hentry, ItemMap.assign, herase, List.append_nil]
  rw [result, hfault, hafter]

theorem fetch_of_operands (h : (fetch arguments).operands = .ok operands) :
    Builtin.fetch arguments context =
      (endFetch operands (context.store.find? operands.key)).result operands.key context := by
  have hoperands : operandsOf Opcode.get.name (itemBox arguments) (keyBox arguments) =
      .ok operands := h
  refine (bind_operandsOf Opcode.get.name (itemBox arguments) (keyBox arguments) _).trans ?_
  rw [hoperands]
  have htake := Builtin.takeEntry_eq Opcode.get.name operands.key context
  cases hfind : context.store.find? operands.key with
  | none =>
      rw [hfind] at htake
      rw [Ending.result_of_idle rfl rfl hfind]
      exact bind_of_error htake
  | some entry =>
      rw [hfind] at htake
      refine (bind_of_ok htake).trans ?_
      refine (bind_addTwice Opcode.get.name operands.key operands.keys _).trans ?_
      cases htwice : operands.keys.addAll? [operands.key, operands.key] with
      | none =>
          simp only [endFetch, htwice, Ending.result, Ending.after, List.append_nil]
          rfl
      | some twice =>
          simp only [endFetch, htwice, Inventory.drain, Inventory.fst_pullAll]
          exact Builtin.warnIf_eq _ _ _

theorem deposit_of_operands (h : (deposit arguments).operands = .ok operands) :
    Builtin.deposit arguments context =
      (endDeposit operands (context.store.find? operands.key)).result operands.key context := by
  have hoperands : operandsOf Opcode.set.name (itemBox arguments) (keyBox arguments) =
      .ok operands := h
  refine (bind_operandsOf Opcode.set.name (itemBox arguments) (keyBox arguments) _).trans ?_
  rw [hoperands]
  refine (bind_of_ok (Builtin.storeUnder_eq _ _ _)).trans ?_
  exact Builtin.warnIf_eq _ _ _

/-- How a call with operands ends depends on the entry under its key alone. -/
theorem perform_of_operands (h : call.operands = .ok operands) :
    call.perform context =
      (call.ending operands (context.store.find? operands.key)).result operands.key context := by
  cases call with
  | fetch arguments => exact fetch_of_operands h
  | deposit arguments => exact deposit_of_operands h

theorem run_of_error (h : call.operands = .error fault) (context : Context) :
    call.run context = (⟨.error fault, []⟩, context) := by
  rw [run, perform_of_error h]
  simp only [List.drop_length]

theorem run_of_operands (h : call.operands = .ok operands) (context : Context) :
    call.run context =
      ((call.ending operands (context.store.find? operands.key)).reply,
        (call.ending operands (context.store.find? operands.key)).after operands.key context) := by
  rw [run, perform_of_operands h]
  generalize call.ending operands (context.store.find? operands.key) = ending
  obtain ⟨⟨returned, warnings⟩, entry⟩ := ending
  cases returned <;> simp only [Ending.result, Ending.after, List.drop_left]

theorem key?_of_error (h : call.operands = .error fault) : call.key? = none := by
  rw [key?, h]
  rfl

theorem key?_of_operands (h : call.operands = .ok operands) : call.key? = some operands.key := by
  rw [key?, h]
  rfl

/-- A call answers alike in contexts that agree on the entry under its key, and they agree
on it afterwards. -/
theorem run_of_pulls (hkey : call.pulls key)
    (hfind : context.store.find? key = other.store.find? key) :
    (call.run context).1 = (call.run other).1 ∧
      (call.run context).2.store.find? key = (call.run other).2.store.find? key := by
  cases h : call.operands with
  | error fault =>
      rw [pulls, key?_of_error h] at hkey
      cases hkey
  | ok operands =>
      have hsame : operands.key == key := by
        rw [pulls, key?_of_operands h] at hkey
        exact hkey
      rw [← ItemMap.find?_congr hsame, ← ItemMap.find?_congr hsame] at hfind
      rw [run_of_operands h, run_of_operands h, hfind]
      refine ⟨rfl, ?_⟩
      rw [← ItemMap.find?_congr hsame, ← ItemMap.find?_congr hsame]
      simp only [Ending.after, ItemMap.find?_assign_self]

/-- A call under no key, or under another one, does not touch the entry. -/
theorem find?_run_of_not_pulls (hkey : call.pulls key = false) (context : Context) :
    (call.run context).2.store.find? key = context.store.find? key := by
  cases h : call.operands with
  | error fault => rw [run_of_error h]
  | ok operands =>
      have hother : (operands.key == key) = false := by
        rw [pulls, key?_of_operands h] at hkey
        exact hkey
      rw [run_of_operands h]
      exact ItemMap.find?_assign_of_ne hother _

/-- The calls under a key, out of a sequence of calls, go as they would alone. -/
theorem runAll_filter (calls : List StoreCall)
    (h : context.store.find? key = other.store.find? key) :
    ((runAll calls context).1.filter fun (call, _) => call.pulls key) =
        (runAll (calls.filter (·.pulls key)) other).1 ∧
      (runAll calls context).2.store.find? key =
        (runAll (calls.filter (·.pulls key)) other).2.store.find? key := by
  induction calls generalizing context other with
  | nil => exact ⟨rfl, h⟩
  | cons call rest ih =>
      by_cases hkey : call.pulls key
      · obtain ⟨hreply, hafter⟩ := run_of_pulls hkey h
        obtain ⟨hreplies, hlast⟩ := ih hafter
        simp only [runAll, List.filter_cons, hkey, if_true]
        exact ⟨by rw [hreply, hreplies], hlast⟩
      · have hskip := find?_run_of_not_pulls (Bool.eq_false_iff.2 hkey) context
        simp only [runAll, List.filter_cons, hkey, Bool.false_eq_true, if_false]
        exact ih (hskip.trans h)

/-- A call keeps to the entry under its key, and to the end of the list of warnings. -/
structure StaysUnderKey (call : StoreCall) (context : Context) : Prop where
  frame : (call.run context).2 =
    { context with
      store := (call.run context).2.store
      warnings := context.warnings ++ (call.run context).1.warnings }
  keyless : call.key? = none → (call.run context).2.store = context.store
  /-- The other entries, in their order. -/
  others : ∀ key, call.key? = some key →
    (call.run context).2.store.erase key = context.store.erase key
  /-- A key that has an entry keeps its place, and a new one comes last. -/
  place : ∀ key, call.key? = some key → call.isDeposit →
    (call.run context).2.store.keys =
      if context.store.contains key then context.store.keys else context.store.keys ++ [key]

theorem staysUnderKey_of_error (h : call.operands = .error fault) (context : Context) :
    call.StaysUnderKey context where
  frame := by simp only [run_of_error h, List.append_nil]
  keyless := by
    intro _
    rw [run_of_error h]
  others := by
    intro key hkey
    rw [key?_of_error h] at hkey
    cases hkey
  place := by
    intro key hkey
    rw [key?_of_error h] at hkey
    cases hkey

theorem staysUnderKey_of_operands (h : call.operands = .ok operands) (context : Context) :
    call.StaysUnderKey context where
  frame := by
    rw [run_of_operands h]
    rfl
  keyless := by
    intro hkey
    rw [key?_of_operands h] at hkey
    cases hkey
  others := by
    intro key hkey
    rw [key?_of_operands h, Option.some.injEq] at hkey
    rw [run_of_operands h, ← hkey]
    exact ItemMap.erase_assign _ _ _
  place := by
    intro key hkey hdeposit
    rw [key?_of_operands h, Option.some.injEq] at hkey
    rw [run_of_operands h, ← hkey]
    cases call with
    | fetch arguments => cases hdeposit
    | deposit arguments => exact ItemMap.keys_insert _ _ _

/-- Keys do not interfere. The calls that pull one key, out of any sequence of calls, give
the same replies and leave the same entry as they do without the others; and no call
changes an entry under another key, or the order of the entries. -/
theorem keys_apart (context : Context) :
    (∀ (calls : List StoreCall) (key : Item),
      ((runAll calls context).1.filter fun (call, _) => call.pulls key) =
          (runAll (calls.filter (·.pulls key)) context).1 ∧
        (runAll calls context).2.store.find? key =
          (runAll (calls.filter (·.pulls key)) context).2.store.find? key) ∧
    ∀ call : StoreCall, call.StaysUnderKey context := by
  refine ⟨fun calls key => runAll_filter calls rfl, ?_⟩
  intro call
  cases h : call.operands with
  | error fault => exact staysUnderKey_of_error h context
  | ok operands => exact staysUnderKey_of_operands h context

private def carrying (unit : Item) : Item :=
  .box ((Inventory.empty 1).fill [unit])

/-- Calls under two keys, one of which is a fault. -/
def errands : List StoreCall :=
  [.deposit #v[carrying (.ofKind "stone"), carrying (.paper "first")],
    .fetch #v[carrying (.ofKind "stone"), carrying (.paper "second")],
    .deposit #v[carrying (.ofKind "dirt"), carrying (.paper "second")],
    .fetch #v[.box .chest, carrying (.paper "first")]]

theorem errands_keys_apart :
    (errands.map (·.pulls (.paper "first"))) = [true, false, false, true] ∧
    ((runAll errands (.ofConfig .standard)).1.filter fun (call, _) => call.pulls (.paper "first")) =
      (runAll (errands.filter (·.pulls (.paper "first"))) (.ofConfig .standard)).1 ∧
    (runAll errands (.ofConfig .standard)).2.store.find? (.paper "first") =
      (runAll (errands.filter (·.pulls (.paper "first"))) (.ofConfig .standard)).2.store.find?
        (.paper "first") ∧
    ∀ call ∈ errands, call.StaysUnderKey (.ofConfig .standard) := by
  obtain ⟨hapart, hstays⟩ := keys_apart (.ofConfig .standard)
  obtain ⟨hreplies, hentry⟩ := hapart errands (.paper "first")
  exact ⟨rfl, hreplies, hentry, fun call _ => hstays call⟩

end StoreCall
end ChestMachine
