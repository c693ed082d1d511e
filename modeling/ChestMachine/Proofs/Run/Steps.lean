import ChestMachine.Proofs.Run.Resume

/-!
Runs whose every dispatch is known. Main statement: a run through a sequence of machines,
each of which one dispatch turns into the next, stops at the cap, after just so many
dispatches, with a snapshot of each machine on the way.
-/
namespace ChestMachine
namespace RouteTable

/-- Each machine of the sequence is the one before it after a dispatch, in which the token
of that number was matched. -/
def Follows (table : RouteTable) (machines : Nat → Machine) (tokens : Nat → Item) : Prop :=
  ∀ k, table.dispatch (machines k) = .ok (some (tokens k)) (machines (k + 1))

/-- The snapshot after so many dispatches. -/
def snapshotOf (machines : Nat → Machine) (tokens : Nat → Item) : Nat → Snapshot
  | 0 => ⟨0, none, (machines 0).memory.text⟩
  | k + 1 => ⟨UInt64.ofNat (k + 1), some (tokens k).label, (machines (k + 1)).memory.text⟩

variable {table : RouteTable} {machines : Nat → Machine} {tokens : Nat → Item}

theorem resume_of_follows (h : table.Follows machines tokens) (left done : Nat) :
    table.resume left (UInt64.ofNat done) (machines done) =
      (⟨.iterationCap (UInt64.ofNat (done + left)),
        (List.range' (done + 1) left).map (snapshotOf machines tokens)⟩,
        machines (done + left)) := by
  induction left generalizing done with
  | zero => rfl
  | succ left ih =>
      have hcount : UInt64.ofNat done + 1 = UInt64.ofNat (done + 1) :=
        (UInt64.ofNat_add done 1).symm
      have hlater := ih (done + 1)
      rw [Nat.add_assoc, Nat.add_comm 1 left] at hlater
      rw [resume_of_some (h done), hcount, hlater, List.range'_succ, List.map_cons]
      rfl

/-- A run along such a sequence is stopped by the cap and by nothing else. -/
theorem run_of_follows (h : table.Follows machines tokens) :
    table.run (machines 0) =
      (⟨.iterationCap (machines 0).context.config.maxIterations,
        (List.range ((machines 0).context.config.maxIterations.toNat + 1)).map
          (snapshotOf machines tokens)⟩,
        machines (machines 0).context.config.maxIterations.toNat) := by
  have hresume := resume_of_follows h (machines 0).context.config.maxIterations.toNat 0
  rw [Nat.zero_add, UInt64.ofNat_toNat] at hresume
  have hzero : (0 : UInt64) = UInt64.ofNat 0 := rfl
  rw [run_eq_resume, hzero, hresume, List.range_eq_range', List.range'_succ, List.map_cons]
  rfl

end RouteTable
end ChestMachine
