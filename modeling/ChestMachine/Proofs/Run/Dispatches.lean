import ChestMachine.Proofs.Route
import ChestMachine.Proofs.Run.Resume

/-!
Runs as dispatches, one after the other. Main statements: a run ends for the one reason
that holds after the dispatches that it completed, and in no other way; and it writes
down memory once before them and once after each.
-/
namespace ChestMachine
namespace RouteTable

/-- The machine after so many dispatches that all found a token and succeeded, and the token
that was matched last. -/
inductive Visits (table : RouteTable) (start : Machine) : Nat → Option Item → Machine → Prop where
  | start : Visits table start 0 none start
  | dispatch {count : Nat} {token : Option Item} {machine next : Machine} {descriptor : Item} :
      Visits table start count token machine →
      table.dispatch machine = .ok (some descriptor) next →
      Visits table start (count + 1) (some descriptor) next

/-- How a run with this cap ends, and the machine that it leaves: at the cap, where no token
is in memory, or at the dispatch that faults. -/
def Ends (table : RouteTable) (start : Machine) (cap : Nat) (outcome : Outcome)
    (final : Machine) : Prop :=
  match outcome with
  | .iterationCap count => count.toNat = cap ∧ ∃ token, table.Visits start cap token final
  | .halted count => count.toNat < cap ∧ (∃ token, table.Visits start count.toNat token final) ∧
      ∀ route ∈ table, final.memory.countOf route.descriptor = 0
  | .faulted iteration fault => ∃ count token last, iteration.toNat = count + 1 ∧ count < cap ∧
      table.Visits start count token last ∧ table.dispatch last = .error fault final

/-- The snapshot tells the number of the dispatch, the label of the token that it matched, and
memory as it was left. -/
def Shows (table : RouteTable) (start : Machine) (count : Nat) (snapshot : Snapshot) : Prop :=
  snapshot.iteration.toNat = count ∧ (snapshot.opcode = none ↔ count = 0) ∧
    ∃ token machine, table.Visits start count token machine ∧
      snapshot.opcode = token.map (·.label) ∧ snapshot.memory = machine.memory.text

variable {table : RouteTable} {start machine next : Machine} {token : Option Item}
  {count left cap : Nat} {iterations : UInt64} {outcome : Outcome} {final : Machine}

theorem toNat_iterations_add_one (h : iterations.toNat + 1 < UInt64.size) :
    (iterations + 1).toNat = iterations.toNat + 1 := by
  rw [UInt64.toNat_add, UInt64.toNat_one]
  exact Nat.mod_eq_of_lt h

/-- One run for each number of dispatches only. -/
theorem visits_unique {other : Option Item} {machine' : Machine}
    (h : table.Visits start count token machine) (h' : table.Visits start count other machine') :
    token = other ∧ machine = machine' := by
  induction h generalizing other machine' with
  | start =>
      cases h'
      exact ⟨rfl, rfl⟩
  | dispatch _ hd ih =>
      cases h' with
      | dispatch hv hd' =>
          obtain ⟨_, rfl⟩ := ih hv
          rw [hd] at hd'
          cases hd'
          exact ⟨rfl, rfl⟩

/-- A run with just so many dispatches to go completes them. -/
theorem resume_of_visits (h : table.Visits start count token machine) :
    ∃ seen, table.resume count 0 start = (⟨.iterationCap (UInt64.ofNat count), seen⟩, machine) := by
  induction h with
  | start => exact ⟨[], rfl⟩
  | @dispatch count _ _ _ descriptor _ hd ih =>
      obtain ⟨seen, hseen⟩ := ih
      have hcount : UInt64.ofNat (count + 1) = UInt64.ofNat count + 1 := UInt64.ofNat_add count 1
      rw [resume_add hseen, resume_of_some hd, hcount]
      exact ⟨_, rfl⟩

/-- What is left of the budget after some dispatches decides how the run ends. -/
theorem outcome_resume_of_visits (h : table.Visits start count token machine) (left : Nat) :
    (table.resume (count + left) 0 start).1.outcome =
        (table.resume left (UInt64.ofNat count) machine).1.outcome ∧
      (table.resume (count + left) 0 start).2 =
        (table.resume left (UInt64.ofNat count) machine).2 := by
  obtain ⟨seen, hseen⟩ := resume_of_visits h
  rw [resume_add hseen]
  exact ⟨rfl, rfl⟩

theorem resume_of_ends (h : table.Ends start cap outcome final) :
    (table.resume cap 0 start).1.outcome = outcome ∧ (table.resume cap 0 start).2 = final := by
  cases outcome with
  | iterationCap count =>
      obtain ⟨rfl, token, hv⟩ := h
      obtain ⟨seen, hseen⟩ := resume_of_visits hv
      rw [hseen, UInt64.ofNat_toNat]
      exact ⟨rfl, rfl⟩
  | halted count =>
      obtain ⟨hlt, ⟨token, hv⟩, hnone⟩ := h
      obtain ⟨later, rfl⟩ := Nat.exists_eq_add_of_lt hlt
      obtain ⟨houtcome, hfinal⟩ := outcome_resume_of_visits hv (later + 1)
      have hd := dispatch_eq_none_iff.2 ⟨rfl, hnone⟩
      rw [resume_of_none hd] at houtcome hfinal
      rw [UInt64.ofNat_toNat] at houtcome
      exact ⟨houtcome, hfinal⟩
  | faulted iteration fault =>
      obtain ⟨count, token, last, hcount, hlt, hv, hd⟩ := h
      obtain ⟨later, rfl⟩ := Nat.exists_eq_add_of_lt hlt
      obtain ⟨houtcome, hfinal⟩ := outcome_resume_of_visits hv (later + 1)
      have hnext : UInt64.ofNat count + 1 = iteration := by
        rw [← UInt64.ofNat_toNat (x := iteration), hcount]
        exact (UInt64.ofNat_add count 1).symm
      rw [resume_of_error hd] at houtcome hfinal
      rw [hnext] at houtcome
      exact ⟨houtcome, hfinal⟩

theorem resume_ends (hv : table.Visits start iterations.toNat token machine)
    (hcap : iterations.toNat + left = cap) (hmax : cap < UInt64.size) :
    table.Ends start cap (table.resume left iterations machine).1.outcome
      (table.resume left iterations machine).2 := by
  induction left generalizing iterations token machine with
  | zero =>
      subst hcap
      exact ⟨rfl, token, hv⟩
  | succ left ih =>
      have hnext := toNat_iterations_add_one (by omega : iterations.toNat + 1 < UInt64.size)
      cases hd : table.dispatch machine with
      | error fault stopped =>
          rw [resume_of_error hd]
          exact ⟨iterations.toNat, token, machine, hnext, by omega, hv, hd⟩
      | ok found next =>
          cases found with
          | none =>
              obtain ⟨rfl, hnone⟩ := dispatch_eq_none_iff.1 hd
              rw [resume_of_none hd]
              exact ⟨by omega, ⟨token, hv⟩, hnone⟩
          | some descriptor =>
              rw [resume_of_some hd]
              have hlater := Visits.dispatch hv hd
              rw [← hnext] at hlater
              exact ih hlater (by omega)

/-- The snapshots of the dispatches that come after so many. -/
def Records (table : RouteTable) (start : Machine) (count : Nat) (report : Report) : Prop :=
  report.outcome.iterations.toNat = count + report.snapshots.length ∧
    ∀ i (h : i < report.snapshots.length), table.Shows start (count + 1 + i) report.snapshots[i]

theorem records_addSnapshot {report : Report} {snapshot : Snapshot}
    (hs : table.Shows start (count + 1) snapshot) (h : table.Records start (count + 1) report) :
    table.Records start count (report.addSnapshot snapshot) := by
  obtain ⟨hcount, hlater⟩ := h
  refine ⟨?_, ?_⟩
  · rw [Report.addSnapshot, List.length_cons, hcount, Nat.add_assoc, Nat.add_comm 1]
  · intro i hi
    cases i with
    | zero => exact hs
    | succ i =>
        have hshows := hlater i (Nat.lt_of_succ_lt_succ hi)
        rwa [Nat.add_assoc (count + 1), Nat.add_comm 1 i] at hshows

theorem resume_records (hv : table.Visits start iterations.toNat token machine)
    (hmax : iterations.toNat + left < UInt64.size) :
    table.Records start iterations.toNat (table.resume left iterations machine).1 := by
  induction left generalizing iterations token machine with
  | zero => exact ⟨rfl, nofun⟩
  | succ left ih =>
      have hnext := toNat_iterations_add_one (by omega : iterations.toNat + 1 < UInt64.size)
      cases hd : table.dispatch machine with
      | error fault stopped =>
          rw [resume_of_error hd]
          exact ⟨congrArg UInt64.toNat (UInt64.add_sub_cancel iterations 1), nofun⟩
      | ok found next =>
          cases found with
          | none =>
              rw [resume_of_none hd]
              exact ⟨rfl, nofun⟩
          | some descriptor =>
              rw [resume_of_some hd]
              have hlater := Visits.dispatch hv hd
              refine records_addSnapshot ⟨hnext, by simp, _, _, hlater, rfl, rfl⟩ ?_
              rw [← hnext] at hlater ⊢
              exact ih hlater (by omega)

/-- The dispatches that a run completes are as many as its outcome tells. -/
theorem visits_of_ends (h : table.Ends start cap outcome final) :
    outcome.iterations.toNat ≤ cap ∧
      ∃ token last, table.Visits start outcome.iterations.toNat token last ∧
        (outcome.isFault = false → final = last) := by
  cases outcome with
  | iterationCap count =>
      obtain ⟨rfl, token, hv⟩ := h
      exact ⟨Nat.le_refl _, token, final, hv, fun _ => rfl⟩
  | halted count =>
      obtain ⟨hlt, ⟨token, hv⟩, _⟩ := h
      exact ⟨Nat.le_of_lt hlt, token, final, hv, fun _ => rfl⟩
  | faulted iteration fault =>
      obtain ⟨count, token, last, hcount, hlt, hv, _⟩ := h
      have hiterations : (Outcome.faulted iteration fault).iterations.toNat = count := by
        have hone : (1 : UInt64) ≤ iteration := by
          rw [UInt64.le_iff_toNat_le, hcount, UInt64.toNat_one]
          exact Nat.le_add_left 1 count
        rw [Outcome.iterations, UInt64.toNat_sub_of_le iteration 1 hone, hcount]
        rfl
      rw [hiterations]
      exact ⟨Nat.le_of_lt hlt, token, last, hv, nofun⟩

section Run

variable (table start)

theorem ends_of_cap (cap : UInt64) : table.Ends start cap.toNat
    (table.resume cap.toNat 0 start).1.outcome (table.resume cap.toNat 0 start).2 :=
  resume_ends .start (Nat.zero_add _) (UInt64.toNat_lt cap)

theorem run_ends : table.Ends start start.context.config.maxIterations.toNat
    (table.run start).1.outcome (table.run start).2 :=
  ends_of_cap table start start.context.config.maxIterations

/-- A run takes one way to end, and no other. -/
theorem outcome_eq_iff_ends (outcome : Outcome) (final : Machine) :
    (table.run start).1.outcome = outcome ∧ (table.run start).2 = final ↔
      table.Ends start start.context.config.maxIterations.toNat outcome final := by
  constructor
  · rintro ⟨rfl, rfl⟩
    exact run_ends table start
  · exact resume_of_ends

theorem records_resume : table.Records start 0
    (table.resume start.context.config.maxIterations.toNat 0 start).1 := by
  refine resume_records .start ?_
  rw [UInt64.toNat_zero, Nat.zero_add]
  exact UInt64.toNat_lt _

theorem length_snapshots_run :
    (table.run start).1.snapshots.length = (table.run start).1.outcome.iterations.toNat + 1 := by
  obtain ⟨hcount, _⟩ := records_resume table start
  rw [Nat.zero_add] at hcount
  exact congrArg (· + 1) hcount.symm

theorem shows_run (i : Nat) (h : i < (table.run start).1.snapshots.length) :
    table.Shows start i (table.run start).1.snapshots[i] := by
  obtain ⟨_, hlater⟩ := records_resume table start
  cases i with
  | zero => exact ⟨rfl, ⟨fun _ => rfl, fun _ => rfl⟩, none, start, .start, rfl, rfl⟩
  | succ i =>
      have hshows := hlater i (Nat.lt_of_succ_lt_succ h)
      rwa [Nat.zero_add, Nat.add_comm 1 i] at hshows

/-- Without a fault, the last snapshot shows the memory that is left. -/
theorem finalMemory?_run (h : (table.run start).1.outcome.isFault = false) :
    (table.run start).1.finalMemory? = some (table.run start).2.memory.text := by
  obtain ⟨_, token, last, hv, hfinal⟩ := visits_of_ends (run_ends table start)
  have hlength := length_snapshots_run table start
  have hlt : (table.run start).1.outcome.iterations.toNat <
      (table.run start).1.snapshots.length := by
    rw [hlength]
    exact Nat.lt_succ_self _
  obtain ⟨_, _, other, machine, hv', _, hmemory⟩ := shows_run table start _ hlt
  obtain ⟨_, rfl⟩ := visits_unique hv hv'
  rw [Report.finalMemory?, List.getLast?_eq_getElem?, hlength, Nat.add_sub_cancel,
    List.getElem?_eq_getElem hlt, Option.map_some, hmemory, hfinal h]

/-- A run is dispatching, at most as often as the cap allows. The outcome counts the
dispatches that it completed, and tells the one reason why there was no other; the
snapshots show memory before the first and after each of them; and an observer sees just
these, in their order. -/
theorem run_dispatches :
    (table.run start).1.outcome.iterations ≤ start.context.config.maxIterations ∧
    (∀ outcome final, (table.run start).1.outcome = outcome ∧ (table.run start).2 = final ↔
      table.Ends start start.context.config.maxIterations.toNat outcome final) ∧
    (table.run start).1.snapshots.length = (table.run start).1.outcome.iterations.toNat + 1 ∧
    (∀ i (h : i < (table.run start).1.snapshots.length),
      table.Shows start i (table.run start).1.snapshots[i]) ∧
    ((table.run start).1.outcome.isFault = false →
      (table.run start).1.finalMemory? = some (table.run start).2.memory.text) ∧
    ∀ (m : Type → Type) [Monad m] [LawfulMonad m] (observe : Snapshot → m Unit),
      table.runWith observe start = (do
        (table.run start).1.snapshots.forM observe
        pure (table.run start)) := by
  obtain ⟨hcap, _⟩ := visits_of_ends (run_ends table start)
  exact ⟨UInt64.le_iff_toNat_le.2 hcap, outcome_eq_iff_ends table start,
    length_snapshots_run table start, shows_run table start, finalMemory?_run table start,
    fun _ _ _ observe => runWith_eq observe table start⟩

end Run

/-- A machine that smelts one box and then finds no token. -/
def oven : Machine :=
  ⟨(Inventory.empty 4).fill [Opcode.smelt.descriptor,
      .box ((Inventory.empty 2).fill [.ofKind "cobblestone", .ofKind "cobblestone"]),
      .box ((Inventory.empty 1).fill [.paper "halt"])], .ofConfig .standard⟩

/-- An observer that writes the snapshots down. -/
def transcribe (snapshot : Snapshot) : StateM (List Snapshot) Unit :=
  modify (· ++ [snapshot])

theorem oven_run_dispatches :
    (builtin.run oven).1.outcome = .halted 1 ∧
    builtin.Ends oven 4 (.halted 1) (builtin.run oven).2 ∧
    (builtin.run oven).1.snapshots.length = 2 ∧
    (∀ i (h : i < (builtin.run oven).1.snapshots.length),
      builtin.Shows oven i (builtin.run oven).1.snapshots[i]) ∧
    (builtin.run oven).1.finalMemory? = some (builtin.run oven).2.memory.text ∧
    builtin.runWith transcribe oven = (do
      (builtin.run oven).1.snapshots.forM transcribe
      pure (builtin.run oven)) := by
  obtain ⟨_, hends, hlength, hshows, hfinal, hobserver⟩ := run_dispatches builtin oven
  have hhalted : (builtin.run oven).1.outcome = .halted 1 := rfl
  rw [hhalted] at hlength
  exact ⟨hhalted, (hends _ _).1 ⟨hhalted, rfl⟩, hlength, hshows, hfinal rfl, hobserver _ transcribe⟩

end RouteTable
end ChestMachine
