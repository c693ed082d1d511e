import ChestMachine.Call
import ChestMachine.Proofs.Delivery

/-!
How effects succeed and how they fault. An effect in sequence succeeds when both
of its halves do, and faults when one of them does; the memory or context that
goes with a fault is the one reached by then. What holds of all faults of an effect
is shown from its first step to its last. The basic effects are characterised by
the pure operation behind them.
-/
namespace ChestMachine

section Sequence

variable {ε σ α β : Type}

theorem bind_eq_ok_iff {x : EStateM ε σ α} {f : α → EStateM ε σ β} {s s' : σ} {b : β} :
    (x >>= f) s = .ok b s' ↔ ∃ a t, x s = .ok a t ∧ f a t = .ok b s' := by
  simp only [bind, EStateM.bind]
  cases x s with
  | ok a t =>
      constructor
      · intro h
        exact ⟨a, t, rfl, h⟩
      · intro ⟨_, _, h, hf⟩
        cases h
        exact hf
  | error e t => simp

theorem bind_eq_error_iff {x : EStateM ε σ α} {f : α → EStateM ε σ β} {s s' : σ} {e : ε} :
    (x >>= f) s = .error e s' ↔
      x s = .error e s' ∨ ∃ a t, x s = .ok a t ∧ f a t = .error e s' := by
  simp only [bind, EStateM.bind]
  cases x s with
  | ok a t =>
      constructor
      · intro h
        exact Or.inr ⟨a, t, rfl, h⟩
      · intro h
        cases h with
        | inl h => cases h
        | inr h =>
            obtain ⟨_, _, h, hf⟩ := h
            cases h
            exact hf
  | error e t => simp

theorem pure_eq_ok_iff {s s' : σ} {a b : α} :
    (pure a : EStateM ε σ α) s = .ok b s' ↔ b = a ∧ s' = s := by
  simp only [pure, EStateM.pure, EStateM.Result.ok.injEq]
  exact ⟨fun h => ⟨h.1.symm, h.2.symm⟩, fun h => ⟨h.1.symm, h.2.symm⟩⟩

theorem bind_of_ok {x : EStateM ε σ α} {f : α → EStateM ε σ β} {s t : σ} {a : α}
    (h : x s = .ok a t) : (x >>= f) s = f a t := by
  simp only [bind, EStateM.bind, h]

theorem bind_of_error {x : EStateM ε σ α} {f : α → EStateM ε σ β} {s t : σ} {e : ε}
    (h : x s = .error e t) : (x >>= f) s = .error e t := by
  simp only [bind, EStateM.bind, h]

/-- The value that is there, or a fault. -/
def orThrow (found : Option α) (e : ε) : EStateM ε σ α :=
  found.elim (throw e) pure

theorem orThrow_eq_ok_iff {found : Option α} {e : ε} {s s' : σ} {a : α} :
    orThrow found e s = .ok a s' ↔ found = some a ∧ s' = s := by
  cases found with
  | none => exact ⟨nofun, fun h => nomatch h.1⟩
  | some b =>
      simp only [orThrow, Option.elim_some, pure_eq_ok_iff, Option.some.injEq, eq_comm]

theorem orThrow_eq_error_iff {found : Option α} {e fault : ε} {s s' : σ} :
    orThrow found e s = .error fault s' ↔ found = none ∧ fault = e ∧ s' = s := by
  cases found with
  | some b => exact ⟨nofun, fun h => nomatch h.1⟩
  | none =>
      simp only [orThrow, Option.elim_none, throw_eq, EStateM.Result.error.injEq, true_and, eq_comm]

/-- Whatever fault the effect ends in from here, `P` holds of it and of the state that it
leaves behind. -/
def FaultsWith (P : ε → σ → Prop) (x : EStateM ε σ α) (s : σ) : Prop :=
  ∀ fault s', x s = .error fault s' → P fault s'

namespace FaultsWith

variable {P : ε → σ → Prop} {x : EStateM ε σ α} {s s' : σ}

theorem of_ok {a : α} (h : x s = .ok a s') : FaultsWith P x s := by
  intro fault t he
  rw [h] at he
  cases he

theorem bind {f : α → EStateM ε σ β} (hx : FaultsWith P x s)
    (hf : ∀ a t, x s = .ok a t → FaultsWith P (f a) t) : FaultsWith P (x >>= f) s := by
  intro fault s' h
  cases bind_eq_error_iff.1 h with
  | inl hfirst => exact hx fault s' hfirst
  | inr hlater =>
      obtain ⟨a, t, hok, he⟩ := hlater
      exact hf a t hok fault s' he

theorem orThrow {found : Option α} {e : ε} (h : found = none → P e s) :
    FaultsWith P (orThrow found e : EStateM ε σ α) s := by
  intro fault s' he
  obtain ⟨hnone, rfl, rfl⟩ := orThrow_eq_error_iff.1 he
  exact h hnone

theorem orThrow_bind {found : Option α} {e : ε} {f : α → EStateM ε σ β}
    (h : found = none → P e s) (hf : ∀ a, found = some a → FaultsWith P (f a) s) :
    FaultsWith P (ChestMachine.orThrow found e >>= f) s := by
  refine bind (orThrow h) ?_
  intro a t hok
  obtain ⟨hsome, rfl⟩ := orThrow_eq_ok_iff.1 hok
  exact hf a hsome

end FaultsWith

/-- Whatever fault the effect ends in from here, `P` holds of it. -/
def FaultsAs (P : ε → Prop) (x : EStateM ε σ α) (s : σ) : Prop :=
  ∀ fault s', x s = .error fault s' → P fault

namespace FaultsAs

variable {P : ε → Prop} {x : EStateM ε σ α} {s s' : σ}

theorem of_ok {a : α} (h : x s = .ok a s') : FaultsAs P x s :=
  FaultsWith.of_ok (P := fun fault _ => P fault) h

theorem bind {f : α → EStateM ε σ β} (hx : FaultsAs P x s)
    (hf : ∀ a t, x s = .ok a t → FaultsAs P (f a) t) : FaultsAs P (x >>= f) s :=
  FaultsWith.bind (P := fun fault _ => P fault) hx hf

theorem orThrow {found : Option α} {e : ε} (h : found = none → P e) :
    FaultsAs P (orThrow found e : EStateM ε σ α) s :=
  FaultsWith.orThrow (P := fun fault _ => P fault) h

theorem orThrow_bind {found : Option α} {e : ε} {f : α → EStateM ε σ β}
    (h : found = none → P e) (hf : ∀ a, found = some a → FaultsAs P (f a) s) :
    FaultsAs P (ChestMachine.orThrow found e >>= f) s :=
  FaultsWith.orThrow_bind (P := fun fault _ => P fault) h hf

theorem mapM {f : α → EStateM ε σ β} {items : List α}
    (h : ∀ a ∈ items, ∀ t, FaultsAs P (f a) t) : FaultsAs P (items.mapM f) s := by
  induction items generalizing s with
  | nil => exact of_ok rfl
  | cons a rest ih =>
      rw [List.mapM_cons]
      refine bind (h a List.mem_cons_self s) ?_
      intro b t _
      refine bind (ih fun later hm => h later (List.mem_cons_of_mem _ hm)) ?_
      intro bs last _
      exact of_ok rfl

end FaultsAs
end Sequence

section Basic

variable {σ : Type} (operation : String) (slot : OperandSlot) (item : Item)
  (inventory : Inventory)

theorem openBox_eq_orThrow :
    (openBox operation slot item : EStateM Fault σ Inventory) =
      orThrow item.contents? ⟨operation, .notABox slot item.text⟩ := by
  unfold openBox
  cases item.contents? <;> rfl

theorem addOrFault_eq_orThrow :
    (addOrFault operation inventory item : EStateM Fault σ Inventory) =
      orThrow (inventory.add? item) ⟨operation, .containerFull item.text⟩ := by
  unfold addOrFault
  cases inventory.add? item <;> rfl

theorem pullOrFault_eq_orThrow :
    (pullOrFault operation slot inventory : EStateM Fault σ (Item × Inventory)) =
      orThrow inventory.pull? ⟨operation, .missingOperand slot⟩ := by
  unfold pullOrFault
  cases inventory.pull? <;> rfl

end Basic

section Memory

variable {operation : String} {slot : OperandSlot} {item : Item} {memory memory' : Inventory}

theorem pop_eq_ok_iff :
    pop operation slot memory = .ok item memory' ↔ memory.pull? = some (item, memory') := by
  cases h : memory.pull? with
  | none => simp [pop_of_empty h]
  | some found => simp [pop_of_pull? h, Prod.ext_iff]

theorem faultsAs_pop {P : Fault → Prop} (h : P ⟨operation, .missingOperand slot⟩) :
    FaultsAs P (pop operation slot) memory := by
  intro fault memory' he
  cases hp : memory.pull? with
  | none =>
      rw [pop_of_empty hp] at he
      cases he
      exact h
  | some found =>
      rw [pop_of_pull? hp] at he
      cases he

def pushAll (operation : String) (items : List Item) : MemoryM Unit :=
  items.forM (push operation)

theorem pushAll_cons (unit : Item) (rest : List Item) :
    pushAll operation (unit :: rest) = (do push operation unit; pushAll operation rest) := rfl

theorem pushAll_append (front back : List Item) :
    pushAll operation (front ++ back) = (do pushAll operation front; pushAll operation back) := by
  induction front with
  | nil => rfl
  | cons unit rest ih =>
      rw [List.cons_append, pushAll_cons, pushAll_cons, ih, bind_assoc]

/-- Units pushed one after the other all go in, or one of them is refused. -/
theorem pushAll_cases (operation : String) (items : List Item) (memory : Inventory) :
    (∃ memory', memory.addAll? items = some memory' ∧
        pushAll operation items memory = .ok () memory') ∨
      (memory.addAll? items = none ∧ ∃ unit memory',
        pushAll operation items memory = .error ⟨operation, .containerFull unit⟩ memory') := by
  induction items generalizing memory with
  | nil => exact Or.inl ⟨memory, rfl, rfl⟩
  | cons unit rest ih =>
      rw [pushAll_cons, Inventory.addAll?_cons]
      cases h : memory.add? unit with
      | none => exact Or.inr ⟨rfl, unit.text, memory, bind_of_error (push_of_full h)⟩
      | some next =>
          rw [Option.bind_some, bind_of_ok (push_of_add? h)]
          exact ih next

theorem pushAll_eq_ok_iff {items : List Item} :
    pushAll operation items memory = .ok () memory' ↔ memory.addAll? items = some memory' := by
  cases pushAll_cases operation items memory with
  | inl h =>
      obtain ⟨found, hadd, hpush⟩ := h
      rw [hadd, hpush]
      simp
  | inr h =>
      obtain ⟨hadd, text, last, hpush⟩ := h
      rw [hadd, hpush]
      simp

/-- A unit that is pushed faults for want of room only. -/
theorem faultsAs_pushAll (operation : String) (items : List Item) (memory : Inventory) :
    FaultsAs (fun fault => ∃ text, fault = ⟨operation, .containerFull text⟩)
      (pushAll operation items) memory := by
  intro fault memory' he
  cases pushAll_cases operation items memory with
  | inl h =>
      obtain ⟨found, _, hpush⟩ := h
      rw [hpush] at he
      cases he
  | inr h =>
      obtain ⟨_, text, last, hpush⟩ := h
      rw [hpush] at he
      cases he
      exact ⟨text, rfl⟩

end Memory
end ChestMachine
