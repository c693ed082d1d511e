import ChestMachine.Run

/-!
Runs that nobody watches. Main statements: how such a run goes on, for each way in which
a dispatch can end; and a run that is watched is the same run, with its snapshots shown
one after the other.
-/
namespace ChestMachine
namespace RouteTable

/-- The run from a machine that has had some dispatches and may have a number more. -/
def resume (table : RouteTable) (left : Nat) (iterations : UInt64) (machine : Machine) :
    Report × Machine :=
  Id.run (table.resumeWith (fun _ => pure ()) left iterations machine)

variable {table : RouteTable} {left : Nat} {machine next : Machine} {descriptor : Item}
  {fault : Fault}

theorem resume_zero (table : RouteTable) (iterations : UInt64) (machine : Machine) :
    table.resume 0 iterations machine = (⟨.iterationCap iterations, []⟩, machine) := rfl

theorem resume_of_none (h : table.dispatch machine = .ok none next) (iterations : UInt64) :
    table.resume (left + 1) iterations machine = (⟨.halted iterations, []⟩, next) := by
  simp only [resume, resumeWith, h]
  rfl

theorem resume_of_error (h : table.dispatch machine = .error fault next) (iterations : UInt64) :
    table.resume (left + 1) iterations machine =
      (⟨.faulted (iterations + 1) fault, []⟩, next) := by
  simp only [resume, resumeWith, h]
  rfl

theorem resume_of_some (h : table.dispatch machine = .ok (some descriptor) next)
    (iterations : UInt64) :
    table.resume (left + 1) iterations machine =
      ((table.resume left (iterations + 1) next).1.addSnapshot
          ⟨iterations + 1, some descriptor.label, next.memory.text⟩,
        (table.resume left (iterations + 1) next).2) := by
  simp only [resume, resumeWith, h]
  rfl

/-- Two budgets, one after the other, are their sum: a run that uses up the first one goes on
with the second where it stopped. -/
theorem resume_add {iterations count : UInt64} {seen : List Snapshot} {more : Nat}
    (h : table.resume left iterations machine = (⟨.iterationCap count, seen⟩, next)) :
    table.resume (left + more) iterations machine =
      (⟨(table.resume more count next).1.outcome,
        seen ++ (table.resume more count next).1.snapshots⟩,
        (table.resume more count next).2) := by
  induction left generalizing iterations machine seen with
  | zero =>
      cases h
      rw [Nat.zero_add]
      rfl
  | succ left ih =>
      rw [Nat.succ_add]
      cases hd : table.dispatch machine with
      | error fault stopped =>
          rw [resume_of_error hd] at h
          cases h
      | ok found mid =>
          cases found with
          | none =>
              rw [resume_of_none hd] at h
              cases h
          | some descriptor =>
              rw [resume_of_some hd] at h
              generalize hrest : table.resume left (iterations + 1) mid = rest at h
              obtain ⟨⟨outcome, later⟩, last⟩ := rest
              cases h
              rw [resume_of_some hd, ih hrest]
              rfl

/-- A run resumes from its start, where the initial memory is written down. -/
theorem run_eq_resume (table : RouteTable) (start : Machine) :
    table.run start =
      ((table.resume start.context.config.maxIterations.toNat 0 start).1.addSnapshot
          ⟨0, none, start.memory.text⟩,
        (table.resume start.context.config.maxIterations.toNat 0 start).2) := rfl

section Observer

variable {m : Type → Type} [Monad m] [LawfulMonad m] (observe : Snapshot → m Unit)

theorem resumeWith_eq (table : RouteTable) (left : Nat) (iterations : UInt64)
    (machine : Machine) :
    table.resumeWith observe left iterations machine = (do
      (table.resume left iterations machine).1.snapshots.forM observe
      pure (table.resume left iterations machine)) := by
  induction left generalizing iterations machine with
  | zero => simp [resumeWith, resume_zero]
  | succ left ih =>
      cases h : table.dispatch machine with
      | error fault next => simp [resumeWith, h, resume_of_error h]
      | ok found next =>
          cases found with
          | none => simp [resumeWith, h, resume_of_none h]
          | some descriptor =>
              simp [resumeWith, h, resume_of_some h, ih, Report.addSnapshot]

/-- What an observer sees of a run are its snapshots, in their order. -/
theorem runWith_eq (table : RouteTable) (start : Machine) :
    table.runWith observe start = (do
      (table.run start).1.snapshots.forM observe
      pure (table.run start)) := by
  simp [runWith, run_eq_resume, resumeWith_eq observe, Report.addSnapshot]

end Observer
end RouteTable
end ChestMachine
