import ChestMachine.Builtin
import ChestMachine.Proofs.Call.Prepared

/-!
Selecting a route and dispatching. Main statements: a selection never faults,
since the token that was pulled can go back; it finds nothing exactly when there is no
token in memory, and the opcode whose token is the only one; and a dispatch is the
selected operation, run on memory as the selection leaves it.
-/
namespace ChestMachine
namespace RouteTable

variable {rule : Item → Bool} {memory : Inventory} {machine : Machine}

theorem select_cons_of_pull {route : Route} {rest : RouteTable} {token : Item}
    {mid memory' : Inventory} (h : memory.pullMatching? route.descriptor = some (token, mid))
    (ha : mid.add? token = some memory') :
    select (route :: rest) memory = .ok (some ⟨0, Nat.zero_lt_succ _⟩) memory' := by
  simp only [select, get_bind, h, set_bind, bind_of_ok (push_of_add? ha)]
  rfl

theorem select_cons_of_none {route : Route} {rest : RouteTable}
    (h : memory.pullMatching? route.descriptor = none) :
    select (route :: rest) memory =
      (select rest >>= fun found => pure (found.map Fin.succ) : MemoryM _) memory := by
  simp only [select, get_bind, h]

/-- As long as a token that was pulled can go back, a selection finds nothing and leaves
memory alone, or it finds a route and puts the token of that back. -/
theorem select_finds (table : RouteTable)
    (hback : ∀ {descriptor token mid}, memory.pullMatching? descriptor = some (token, mid) →
      ∃ memory', mid.add? token = some memory') :
    select table memory = .ok none memory ∨
      ∃ index token mid memory', select table memory = .ok (some index) memory' ∧
        memory.pullMatching? (table.get index).descriptor = some (token, mid) ∧
          mid.add? token = some memory' := by
  induction table with
  | nil => exact Or.inl rfl
  | cons route rest ih =>
      cases hp : memory.pullMatching? route.descriptor with
      | some found =>
          obtain ⟨token, mid⟩ := found
          obtain ⟨memory', ha⟩ := hback hp
          exact Or.inr ⟨_, token, mid, memory', select_cons_of_pull hp ha, hp, ha⟩
      | none =>
          rw [select_cons_of_none hp]
          cases ih with
          | inl hnone =>
              rw [bind_of_ok hnone]
              exact Or.inl rfl
          | inr hsome =>
              obtain ⟨index, token, mid, memory', hs, hp', ha⟩ := hsome
              rw [bind_of_ok hs]
              exact Or.inr ⟨index.succ, token, mid, memory', rfl, hp', ha⟩

/-- A selection finds nothing and leaves memory alone, or it finds a route and leaves
lawful memory behind. -/
theorem select_cases (table : RouteTable) (h : memory.obeys rule) :
    select table memory = .ok none memory ∨
      ∃ index memory', select table memory = .ok (some index) memory' ∧ memory'.obeys rule := by
  refine (select_finds table (Inventory.add?_of_pullWanted? h)).imp_right ?_
  intro ⟨index, token, mid, memory', hs, hp, ha⟩
  obtain ⟨⟨htoken, _⟩, hmid⟩ := Inventory.obeys_pullWanted? h hp
  exact ⟨index, memory', hs, Inventory.obeys_add? hmid htoken ha⟩

theorem dispatch_of_none {table : RouteTable} (h : select table machine.memory = .ok none memory) :
    table.dispatch machine = .ok none { machine with memory } := by
  have hlift : onMemory (select table) machine = .ok none { machine with memory } := by
    simp only [onMemory, h]
  rw [dispatch, bind_of_ok hlift]
  rfl

theorem dispatch_of_some {table : RouteTable} {index : Fin table.length}
    (h : select table machine.memory = .ok (some index) memory) :
    table.dispatch machine =
      ((table.get index).operation.run >>= fun _ =>
        pure (some (table.get index).descriptor) : MachineM _) { machine with memory } := by
  have hlift : onMemory (select table) machine = .ok (some index) { machine with memory } := by
    simp only [onMemory, h]
  rw [dispatch, bind_of_ok hlift]

/-- A selection that finds nothing has looked for every token in vain. -/
theorem select_eq_none_iff {table : RouteTable} {memory' : Inventory} :
    select table memory = .ok none memory' ↔
      memory' = memory ∧ ∀ route ∈ table, memory.countOf route.descriptor = 0 := by
  induction table with
  | nil => simp [select, pure, EStateM.pure, eq_comm]
  | cons route rest ih =>
      rw [List.forall_mem_cons, ← Inventory.pullMatching?_eq_none_iff]
      cases hp : memory.pullMatching? route.descriptor with
      | none =>
          simp only [select_cons_of_none hp, bind_eq_ok_iff, pure_eq_ok_iff, true_and]
          rw [← ih]
          constructor
          · rintro ⟨found, last, hselect, hnone, rfl⟩
            rw [Option.map_eq_none_iff.1 hnone.symm] at hselect
            exact hselect
          · intro hselect
            exact ⟨none, memory', hselect, rfl, rfl⟩
      | some found =>
          obtain ⟨token, mid⟩ := found
          have hselect : ∀ last, select (route :: rest) memory ≠ .ok none last := by
            intro last h
            simp only [select, get_bind, hp, set_bind] at h
            cases ha : mid.add? token with
            | none =>
                rw [bind_of_error (push_of_full ha)] at h
                cases h
            | some next =>
                rw [bind_of_ok (push_of_add? ha)] at h
                cases h
          simp [hselect]

/-- A dispatch that finds no token leaves the machine as it is, and there is no token. -/
theorem dispatch_eq_none_iff {table : RouteTable} {machine next : Machine} :
    table.dispatch machine = .ok none next ↔
      next = machine ∧ ∀ route ∈ table, machine.memory.countOf route.descriptor = 0 := by
  constructor
  · intro hd
    cases h : select table machine.memory with
    | error fault memory' =>
        have hlift : onMemory (select table) machine =
            .error fault { machine with memory := memory' } := by
          simp only [onMemory, h]
        rw [dispatch, bind_of_error hlift] at hd
        cases hd
    | ok found memory' =>
        cases found with
        | none =>
            obtain ⟨rfl, hall⟩ := select_eq_none_iff.1 h
            rw [dispatch_of_none h] at hd
            cases hd
            exact ⟨rfl, hall⟩
        | some index =>
            rw [dispatch_of_some h, bind_eq_ok_iff] at hd
            obtain ⟨_, _, _, hpure⟩ := hd
            cases hpure
  · rintro ⟨rfl, hall⟩
    exact dispatch_of_none (select_eq_none_iff.2 ⟨rfl, hall⟩)

/-- The selection finds the route of the opcode and leaves this memory behind. -/
def Selects (opcode : Opcode) (before after : Inventory) : Prop :=
  ∃ index, select builtin before = .ok (some index) after ∧ builtin.get index = opcode.route

/-- The routes are gone through up to the one whose token is in memory. -/
theorem select_routes {opcode : Opcode} {opcodes : List Opcode} {token : Item}
    {mid memory' : Inventory} (hm : opcode ∈ opcodes)
    (hpull : memory.pullMatching? opcode.descriptor = some (token, mid))
    (hadd : mid.add? token = some memory')
    (hothers : ∀ other, other ≠ opcode → memory.pullMatching? other.descriptor = none) :
    ∃ index, select (opcodes.map Opcode.route) memory = .ok (some index) memory' ∧
      (opcodes.map Opcode.route).get index = opcode.route := by
  induction opcodes with
  | nil => cases hm
  | cons first rest ih =>
      by_cases hfirst : first = opcode
      · subst hfirst
        exact ⟨⟨0, Nat.zero_lt_succ _⟩, select_cons_of_pull hpull hadd, rfl⟩
      · have hnone : memory.pullMatching? first.route.descriptor = none := hothers first hfirst
        have hrest := (List.mem_cons.1 hm).resolve_left fun heq => hfirst heq.symm
        obtain ⟨index, hs, hroute⟩ := ih hrest
        exact ⟨index.succ, (select_cons_of_none hnone).trans (bind_of_ok hs), hroute⟩

theorem selects_of_only {opcode : Opcode} {token : Item} {mid memory' : Inventory}
    (hpull : memory.pullMatching? opcode.descriptor = some (token, mid))
    (hadd : mid.add? token = some memory')
    (hothers : ∀ other, other ≠ opcode → memory.pullMatching? other.descriptor = none) :
    Selects opcode memory memory' := by
  have hm : opcode ∈ Opcode.all := by cases opcode <;> simp [Opcode.all]
  exact select_routes hm hpull hadd hothers

theorem builtin_get (index : Fin builtin.length) :
    ∃ opcode, builtin.get index = Opcode.route opcode := by
  have hm : builtin.get index ∈ Opcode.all.map Opcode.route := List.getElem_mem _
  obtain ⟨opcode, _, heq⟩ := List.mem_map.1 hm
  exact ⟨opcode, heq.symm⟩

theorem dispatch_of_selects {opcode : Opcode} (h : Selects opcode machine.memory memory) :
    builtin.dispatch machine =
      (opcode.call.run >>= fun _ => pure (some opcode.descriptor) : MachineM _)
        { machine with memory } := by
  obtain ⟨index, hs, hroute⟩ := h
  rw [dispatch_of_some hs, hroute]
  rfl

theorem obeys_of_selects {opcode : Opcode} {before after : Inventory} (h : before.obeys rule)
    (hs : Selects opcode before after) : after.obeys rule := by
  obtain ⟨index, hselect, _⟩ := hs
  cases select_cases builtin h with
  | inl hnone =>
      rw [hselect] at hnone
      cases hnone
  | inr hsome =>
      obtain ⟨found, memory, hother, hm⟩ := hsome
      rw [hselect] at hother
      cases hother
      exact hm

/-- A dispatch of the built-in table halts the run or calls an opcode. -/
theorem builtin_cases (h : machine.memory.obeys rule) :
    builtin.dispatch machine = .ok none machine ∨
      ∃ opcode memory, Selects opcode machine.memory memory := by
  cases select_cases builtin h with
  | inl hnone => exact Or.inl (dispatch_of_none hnone)
  | inr hsome =>
      obtain ⟨index, memory, hs, _⟩ := hsome
      obtain ⟨opcode, hroute⟩ := builtin_get index
      exact Or.inr ⟨opcode, memory, index, hs, hroute⟩

theorem builtin_eq_error (h : machine.memory.obeys rule) {fault : Fault} {stopped : Machine}
    (hd : builtin.dispatch machine = .error fault stopped) :
    ∃ opcode memory, Selects opcode machine.memory memory ∧
      opcode.call.run { machine with memory } = .error fault stopped := by
  cases builtin_cases h with
  | inl hnone =>
      rw [hd] at hnone
      cases hnone
  | inr hsome =>
      obtain ⟨opcode, memory, hs⟩ := hsome
      rw [dispatch_of_selects hs, bind_eq_error_iff] at hd
      cases hd with
      | inl hrun => exact ⟨opcode, memory, hs, hrun⟩
      | inr hlast =>
          obtain ⟨_, _, _, hpure⟩ := hlast
          cases hpure

theorem builtin_eq_ok (h : machine.memory.obeys rule) {descriptor : Item} {next : Machine}
    (hd : builtin.dispatch machine = .ok (some descriptor) next) :
    ∃ opcode memory, Selects opcode machine.memory memory ∧
      opcode.call.run { machine with memory } = .ok () next := by
  cases builtin_cases h with
  | inl hnone =>
      rw [hd] at hnone
      cases hnone
  | inr hsome =>
      obtain ⟨opcode, memory, hs⟩ := hsome
      rw [dispatch_of_selects hs, bind_eq_ok_iff] at hd
      obtain ⟨⟨⟩, _, hrun, hpure⟩ := hd
      cases hpure
      exact ⟨opcode, memory, hs, hrun⟩

end RouteTable
end ChestMachine
