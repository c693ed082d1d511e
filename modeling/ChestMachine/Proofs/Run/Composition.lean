import ChestMachine.Proofs.Run.Cap
import ChestMachine.Proofs.Run.Dispatches

/-!
Runs that are taken up again. Main statements: a run does not see how far it has come,
apart from the numbers that it gives out; nor does it see the cap before it gets there; so
a run that stopped at the cap, taken up again with another one, is one run with the sum of
both, and a run that ended before the cap is the same under every larger one.
-/
namespace ChestMachine

/-- The snapshot as it is numbered after some earlier dispatches. -/
def Snapshot.later (earlier : UInt64) (snapshot : Snapshot) : Snapshot :=
  { snapshot with iteration := earlier + snapshot.iteration }

def Outcome.later (earlier : UInt64) : Outcome → Outcome
  | .halted iterations => .halted (earlier + iterations)
  | .iterationCap iterations => .iterationCap (earlier + iterations)
  | .faulted iteration fault => .faulted (earlier + iteration) fault

def Report.later (earlier : UInt64) (report : Report) : Report :=
  ⟨report.outcome.later earlier, report.snapshots.map (·.later earlier)⟩

theorem Outcome.kind_later (earlier : UInt64) (outcome : Outcome) :
    (outcome.later earlier).kind = outcome.kind := by
  cases outcome <;> rfl

theorem Outcome.fault?_later (earlier : UInt64) (outcome : Outcome) :
    (outcome.later earlier).fault? = outcome.fault? := by
  cases outcome <;> rfl

theorem Outcome.iterations_later (earlier : UInt64) (outcome : Outcome) :
    (outcome.later earlier).iterations = earlier + outcome.iterations := by
  cases outcome with
  | halted _ | iterationCap _ => rfl
  | faulted iteration fault =>
      simp only [later, iterations, UInt64.sub_eq_add_neg, UInt64.add_assoc]

namespace RouteTable

variable {table : RouteTable} {start machine next : Machine} {left : Nat}

theorem resume_withCap (h : table.IgnoresCap) (cap : UInt64) (left : Nat) (iterations : UInt64)
    (machine : Machine) :
    table.resume left iterations (machine.withCap cap) =
      ((table.resume left iterations machine).1,
        (table.resume left iterations machine).2.withCap cap) := by
  induction left generalizing iterations machine with
  | zero => rfl
  | succ left ih =>
      have hcap := commutesWith_dispatch h cap machine
      cases hd : table.dispatch machine with
      | error fault stopped =>
          rw [hd] at hcap
          rw [resume_of_error hd, resume_of_error hcap]
      | ok found mid =>
          rw [hd] at hcap
          cases found with
          | none => rw [resume_of_none hd, resume_of_none hcap]
          | some descriptor =>
              rw [resume_of_some hd, resume_of_some hcap, ih]
              rfl

/-- Earlier dispatches show in the numbers only. -/
theorem resume_later (table : RouteTable) (earlier : UInt64) (left : Nat) (iterations : UInt64)
    (machine : Machine) :
    table.resume left (earlier + iterations) machine =
      ((table.resume left iterations machine).1.later earlier,
        (table.resume left iterations machine).2) := by
  induction left generalizing iterations machine with
  | zero => rfl
  | succ left ih =>
      have hnext := UInt64.add_assoc earlier iterations 1
      cases hd : table.dispatch machine with
      | error fault stopped =>
          rw [resume_of_error hd, resume_of_error hd, hnext]
          rfl
      | ok found mid =>
          cases found with
          | none =>
              rw [resume_of_none hd, resume_of_none hd]
              rfl
          | some descriptor =>
              rw [resume_of_some hd, resume_of_some hd, hnext, ih]
              rfl

/-- A run that has ended does not need what is left of its budget. -/
theorem resume_of_ended {iterations : UInt64}
    (h : ∀ count, (table.resume left iterations machine).1.outcome ≠ .iterationCap count)
    (more : Nat) :
    table.resume (left + more) iterations machine = table.resume left iterations machine := by
  induction left generalizing iterations machine with
  | zero => exact absurd rfl (h iterations)
  | succ left ih =>
      rw [Nat.succ_add]
      cases hd : table.dispatch machine with
      | error fault stopped => rw [resume_of_error hd, resume_of_error hd]
      | ok found mid =>
          cases found with
          | none => rw [resume_of_none hd, resume_of_none hd]
          | some descriptor =>
              rw [resume_of_some hd] at h
              rw [resume_of_some hd, resume_of_some hd, ih h]

theorem run_withCap (h : table.IgnoresCap) (cap : UInt64) (start : Machine) :
    table.run (start.withCap cap) =
      ((table.resume cap.toNat 0 start).1.addSnapshot ⟨0, none, start.memory.text⟩,
        (table.resume cap.toNat 0 start).2.withCap cap) := by
  rw [run_eq_resume]
  have hresume := resume_withCap h cap cap.toNat 0 start
  exact congrArg (fun run : Report × Machine =>
    (run.1.addSnapshot ⟨0, none, start.memory.text⟩, run.2)) hresume

/-- A run that stops at its cap has had that many dispatches. -/
theorem resume_of_iterationCap {cap count : UInt64} {seen : List Snapshot}
    (h : table.resume cap.toNat 0 start = (⟨.iterationCap count, seen⟩, next)) : count = cap := by
  have hends := ends_of_cap table start cap
  rw [h] at hends
  exact UInt64.toNat_inj.1 hends.1

theorem iteration_le_cap {snapshot : Snapshot} (h : snapshot ∈ (table.run start).1.snapshots) :
    snapshot.iteration.toNat ≤ start.context.config.maxIterations.toNat := by
  obtain ⟨i, hi, rfl⟩ := List.mem_iff_getElem.1 h
  obtain ⟨hiteration, _⟩ := shows_run table start i hi
  obtain ⟨hcap, _⟩ := visits_of_ends (run_ends table start)
  rw [length_snapshots_run] at hi
  rw [hiteration]
  exact Nat.le_trans (Nat.le_of_lt_succ hi) hcap

/-- The run with both budgets, put together from the run with the first one and the run that
takes it up with the second one. -/
structure Joins (first second : UInt64) (run resumed whole : Report × Machine) : Prop where
  /-- Memory and context are the same, apart from the cap. -/
  machine : whole.2 = resumed.2.withCap (first + second)
  kind : whole.1.outcome.kind = resumed.1.outcome.kind
  fault : whole.1.outcome.fault? = resumed.1.outcome.fault?
  iterations : whole.1.outcome.iterations.toNat =
    first.toNat + resumed.1.outcome.iterations.toNat
  /-- Without the initial snapshot of the second run, which is the last one of the first. -/
  snapshots : whole.1.snapshots =
    run.1.snapshots ++ resumed.1.snapshots.tail.map (·.later first)
  numbers : ∀ snapshot ∈ resumed.1.snapshots,
    (snapshot.later first).iteration.toNat = first.toNat + snapshot.iteration.toNat

section Join

variable {first second : UInt64} {seen : List Snapshot}

theorem toNat_add_of_le {earlier budget count : UInt64}
    (hsum : earlier.toNat + budget.toNat < UInt64.size) (h : count.toNat ≤ budget.toNat) :
    (earlier + count).toNat = earlier.toNat + count.toNat := by
  rw [UInt64.toNat_add]
  exact Nat.mod_eq_of_lt (Nat.lt_of_le_of_lt (Nat.add_le_add_left h _) hsum)

/-- The budgets are used up one after the other. -/
theorem resume_sum (hrun : table.resume first.toNat 0 start = (⟨.iterationCap first, seen⟩, next))
    (hsum : first.toNat + second.toNat < UInt64.size) :
    table.resume (first + second).toNat 0 start =
      (⟨(table.resume second.toNat 0 next).1.outcome.later first,
        seen ++ (table.resume second.toNat 0 next).1.snapshots.map (·.later first)⟩,
        (table.resume second.toNat 0 next).2) := by
  have hlater := resume_later table first second.toNat 0 next
  rw [UInt64.add_zero] at hlater
  rw [toNat_add_of_le hsum (Nat.le_refl _), resume_add hrun, hlater]
  rfl

theorem run_joins (h : table.IgnoresCap) {count : UInt64}
    (hcap : (table.run (start.withCap first)).1.outcome = .iterationCap count)
    (hsum : first.toNat + second.toNat < UInt64.size) :
    Joins first second (table.run (start.withCap first))
      (table.run ((table.run (start.withCap first)).2.withCap second))
      (table.run (start.withCap (first + second))) := by
  rw [run_withCap h first start] at hcap ⊢
  generalize hrun : table.resume first.toNat 0 start = run at hcap ⊢
  obtain ⟨⟨outcome, seen⟩, next⟩ := run
  obtain rfl : outcome = .iterationCap count := hcap
  obtain rfl := resume_of_iterationCap hrun
  have hwhole := run_withCap h (count + second) start
  have hresumed : table.run ((next.withCap count).withCap second) = _ := run_withCap h second next
  rw [resume_sum hrun hsum] at hwhole
  obtain ⟨hle, _⟩ := visits_of_ends (ends_of_cap table next second)
  refine ⟨?_, ?_, ?_, ?_, ?_, ?_⟩
  · rw [hwhole, hresumed]
    rfl
  · rw [hwhole, hresumed]
    exact Outcome.kind_later _ _
  · rw [hwhole, hresumed]
    exact Outcome.fault?_later _ _
  · rw [hwhole, hresumed]
    exact (congrArg UInt64.toNat (Outcome.iterations_later _ _)).trans (toNat_add_of_le hsum hle)
  · rw [hwhole, hresumed]
    rfl
  · intro snapshot hsnapshot
    exact toNat_add_of_le hsum (iteration_le_cap hsnapshot)

/-- A run that ends before its cap is the same under a larger one. -/
theorem run_of_larger (h : table.IgnoresCap) {cap larger : UInt64}
    (hended : ∀ count, (table.run (start.withCap cap)).1.outcome ≠ .iterationCap count)
    (hle : cap ≤ larger) :
    table.run (start.withCap larger) =
      ((table.run (start.withCap cap)).1, (table.run (start.withCap cap)).2.withCap larger) := by
  rw [run_withCap h] at hended ⊢
  rw [run_withCap h]
  obtain ⟨more, hmore⟩ := Nat.exists_eq_add_of_le (UInt64.le_iff_toNat_le.1 hle)
  rw [hmore, resume_of_ended hended]
  rfl

end Join

/-- Runs compose, over the built-in table and over every other one whose operations neither
look at the cap nor set it. A run that stops at its cap and is taken up again goes on as one
run with the sum of both caps would; and a run that halts or faults does so in the same way
under all larger caps. -/
theorem run_composes :
    builtin.IgnoresCap ∧
    ∀ (table : RouteTable), table.IgnoresCap → ∀ (start : Machine) (first : UInt64),
      (∀ second count : UInt64,
        (table.run (start.withCap first)).1.outcome = .iterationCap count →
        first.toNat + second.toNat < UInt64.size →
        Joins first second (table.run (start.withCap first))
          (table.run ((table.run (start.withCap first)).2.withCap second))
          (table.run (start.withCap (first + second)))) ∧
      ∀ larger : UInt64,
        (∀ count, (table.run (start.withCap first)).1.outcome ≠ .iterationCap count) →
        first ≤ larger →
        table.run (start.withCap larger) = ((table.run (start.withCap first)).1,
          (table.run (start.withCap first)).2.withCap larger) := by
  refine ⟨builtin_ignoresCap, ?_⟩
  intro table htable start first
  exact ⟨fun _ _ hcap hsum => run_joins htable hcap hsum,
    fun _ hended hle => run_of_larger htable hended hle⟩

theorem oven_run_composes :
    (builtin.run (oven.withCap 1)).1.outcome = .iterationCap 1 ∧
    Joins 1 2 (builtin.run (oven.withCap 1))
      (builtin.run ((builtin.run (oven.withCap 1)).2.withCap 2))
      (builtin.run (oven.withCap 3)) ∧
    (builtin.run (oven.withCap 2)).1.outcome = .halted 1 ∧
    builtin.run (oven.withCap 9) = ((builtin.run (oven.withCap 2)).1,
      (builtin.run (oven.withCap 2)).2.withCap 9) := by
  obtain ⟨hbuiltin, hcomposes⟩ := run_composes
  have hcapped : (builtin.run (oven.withCap 1)).1.outcome = .iterationCap 1 := rfl
  have hhalted : (builtin.run (oven.withCap 2)).1.outcome = .halted 1 := rfl
  have hjoins := (hcomposes builtin hbuiltin oven 1).1 2 1 hcapped (by decide)
  have hlarger := (hcomposes builtin hbuiltin oven 2).2 9 (by rw [hhalted]; nofun) (by decide)
  exact ⟨hcapped, hjoins, hhalted, hlarger⟩

namespace Timid

/-- Changes nothing, but works under a cap of one dispatch only. -/
def peek : Operation :=
  ⟨"peek", fun machine =>
    if machine.context.config.maxIterations ≤ 1 then .ok () machine
    else .error ⟨"peek", .unknownItem "cap"⟩ machine⟩

def routes : RouteTable :=
  [⟨.paper "peek", peek⟩]

def waiting : Machine :=
  ⟨(Inventory.empty 1).fill [.paper "peek"], .ofConfig .standard⟩

theorem routes_leaveConfig : routes.LeavesConfig := by
  intro route hroute machine
  rw [List.mem_singleton.1 hroute]
  by_cases hcap : machine.context.config.maxIterations ≤ 1
  · simp only [peek, if_pos hcap]
  · simp only [peek, if_neg hcap]

/-- Leaving the configuration as it is does not do: two runs with a cap of one each get to it,
and the run with the sum of both faults. -/
theorem peek_runs_apart :
    routes.LeavesConfig ∧
    (routes.run (waiting.withCap 1)).1.outcome = .iterationCap 1 ∧
    (routes.run ((routes.run (waiting.withCap 1)).2.withCap 1)).1.outcome = .iterationCap 1 ∧
    (routes.run (waiting.withCap (1 + 1))).1.outcome =
      .faulted 1 ⟨"peek", .unknownItem "cap"⟩ ∧
    ¬ Joins 1 1 (routes.run (waiting.withCap 1))
      (routes.run ((routes.run (waiting.withCap 1)).2.withCap 1))
      (routes.run (waiting.withCap (1 + 1))) := by
  have hresumed : (routes.run ((routes.run (waiting.withCap 1)).2.withCap 1)).1.outcome =
      .iterationCap 1 := rfl
  have hwhole : (routes.run (waiting.withCap (1 + 1))).1.outcome =
      .faulted 1 ⟨"peek", .unknownItem "cap"⟩ := rfl
  refine ⟨routes_leaveConfig, rfl, hresumed, hwhole, ?_⟩
  intro hjoins
  have hkind := hjoins.kind
  rw [hresumed, hwhole] at hkind
  exact absurd hkind (by decide)

end Timid
end RouteTable
end ChestMachine
