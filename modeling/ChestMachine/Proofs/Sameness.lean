import Mathlib.Data.List.Forall2
import ChestMachine.Proofs.Surfacing

/-!
Sameness as a congruence. Being the same is an equivalence on items, stacks and inventories.
Main statement: what is read from two inventories that are the same, one after the other or as
a whole, is the same, and leaves inventories that are the same, however they differ in limits
and in what vacant slots remember; and so does a selection.
-/
namespace ChestMachine

theorem beq_equivalence (α : Type) [BEq α] [EquivBEq α] :
    Equivalence fun a b : α => (a == b) = true :=
  ⟨fun _ => BEq.rfl, BEq.symm, BEq.trans⟩

namespace Stack

/-- Both slots are vacant, or they have as many units of the same item. -/
inductive Alike (s t : Stack) : Prop where
  | vacant : s.held? = none → t.held? = none → Alike s t
  | held {item other : Item} : s.held? = some item → t.held? = some other → item == other →
      s.count = t.count → Alike s t

theorem identity_eq (s : Stack) :
    s.identity = (s.held?.map fun item => .used item.identity s.count).getD .fresh := by
  cases s with
  | fresh => rfl
  | used item count => by_cases h : count = 0 <;> simp [identity, held?, h]

theorem beq_iff_alike (s t : Stack) : s == t ↔ s.Alike t := by
  rw [beq_iff, identity_eq, identity_eq]
  constructor
  · intro h
    cases hs : s.held? with
    | none =>
        cases ht : t.held? with
        | none => exact .vacant hs ht
        | some other =>
            rw [hs, ht] at h
            cases h
    | some item =>
        cases ht : t.held? with
        | none =>
            rw [hs, ht] at h
            cases h
        | some other =>
            rw [hs, ht] at h
            injection h with hitem hcount
            exact .held hs ht ((Item.beq_iff item other).2 hitem) hcount
  · intro h
    cases h with
    | vacant hs ht => rw [hs, ht]; rfl
    | held hs ht hsame hcount =>
        rw [hs, ht, Option.map_some, Option.map_some, (Item.beq_iff _ _).1 hsame, hcount]

variable {s t : Stack}

theorem Alike.count_eq (h : s.Alike t) : s.count = t.count := by
  cases h with
  | vacant hs ht => rw [(held?_eq_none_iff s).1 hs, (held?_eq_none_iff t).1 ht]
  | held _ _ _ hcount => exact hcount

theorem Alike.held?_rel (h : s.Alike t) :
    Option.Rel (fun i j : Item => i == j) s.held? t.held? := by
  cases h with
  | vacant hs ht => rw [hs, ht]; exact .none
  | held hs ht hsame _ => rw [hs, ht]; exact .some hsame

theorem Alike.holds_eq {d e : Item} (h : s.Alike t) (hd : d == e) : s.holds d = t.holds e := by
  cases h with
  | vacant hs ht => rw [holds, holds, hs, ht]
  | held hs ht hsame _ =>
      simp only [holds, hs, ht]
      rw [BEq.congr_left hsame, BEq.congr_right hd]

theorem alike_used {item other : Item} (h : item == other) (n : UInt32) :
    (used item n).Alike (used other n) := by
  by_cases hn : n = 0
  · subst hn
    exact .vacant rfl rfl
  · exact .held (held?_used hn) (held?_used hn) h rfl

end Stack

/-- Slot by slot. -/
abbrev SlotsAlike : List Stack → List Stack → Prop :=
  List.Forall₂ Stack.Alike

theorem Inventory.beq_iff_alike (a b : Inventory) : a == b ↔ SlotsAlike a.slots b.slots := by
  obtain ⟨slots⟩ := a
  obtain ⟨slots'⟩ := b
  change Stack.sameAll slots slots' ↔ SlotsAlike slots slots'
  induction slots generalizing slots' with
  | nil => cases slots' <;> simp [Stack.sameAll, SlotsAlike]
  | cons s rest ih =>
      cases slots' with
      | nil => simp [Stack.sameAll, SlotsAlike]
      | cons t rest' =>
          rw [Stack.sameAll, Bool.and_eq_true, ih, SlotsAlike, List.forall₂_cons,
            ← Stack.beq_iff_alike]
          rfl

theorem rel_map {α β γ δ : Type} {r : α → β → Prop} {r' : γ → δ → Prop} {f : α → γ} {g : β → δ}
    {x : Option α} {y : Option β} (h : Option.Rel r x y) (hfg : ∀ a b, r a b → r' (f a) (g b)) :
    Option.Rel r' (x.map f) (y.map g) := by
  cases h with
  | none => exact .none
  | some hab => exact .some (hfg _ _ hab)

namespace Inventory

/-- Nothing was pulled, or units that are the same, out of slots that are alike then. -/
abbrev PullsAlike : Option (Item × List Stack) → Option (Item × List Stack) → Prop :=
  Option.Rel fun p q => p.1 == q.1 ∧ SlotsAlike p.2 q.2

variable {slots slots' : List Stack} {wanted wanted' : Item → Bool} {a b : Inventory}

/-- A unit is pulled from the same slot on both sides. -/
theorem pullFrom?_alike (hw : ∀ {i j : Item}, i == j → wanted i = wanted' j)
    (h : SlotsAlike slots slots') :
    PullsAlike (pullFrom? wanted slots) (pullFrom? wanted' slots') := by
  induction h with
  | nil => exact .none
  | @cons s t rest rest' hst hrest ih =>
      have hbehind : PullsAlike
          ((pullFrom? wanted rest).map fun found => (found.1, s :: found.2))
          ((pullFrom? wanted' rest').map fun found => (found.1, t :: found.2)) :=
        rel_map ih fun _ _ hfound => ⟨hfound.1, .cons hst hfound.2⟩
      cases hst with
      | vacant hs ht =>
          rw [pullFrom?_cons_of_vacant hs, pullFrom?_cons_of_vacant ht]
          exact hbehind
      | held hs ht hsame hcount =>
          rw [pullFrom?_cons_of_held hs, pullFrom?_cons_of_held ht, hw hsame, hcount]
          split
          · exact .some ⟨hsame, .cons (Stack.alike_used hsame _) hrest⟩
          · exact hbehind

/-- Either both sides give nothing, or both give a unit. -/
theorem pullWanted?_cases (hw : ∀ {i j : Item}, i == j → wanted i = wanted' j) (h : a == b) :
    (a.pullWanted? wanted = none ∧ b.pullWanted? wanted' = none) ∨
      ∃ i j rest rest', a.pullWanted? wanted = some (i, rest) ∧
        b.pullWanted? wanted' = some (j, rest') ∧ i == j ∧ rest == rest' := by
  have hpull := pullFrom?_alike hw ((beq_iff_alike a b).1 h)
  rw [pullWanted?, pullWanted?]
  generalize pullFrom? wanted a.slots = found at hpull ⊢
  generalize pullFrom? wanted' b.slots = found' at hpull ⊢
  cases hpull with
  | none => exact Or.inl ⟨rfl, rfl⟩
  | some hsame =>
      exact Or.inr ⟨_, _, _, _, rfl, rfl, hsame.1, (beq_iff_alike _ _).2 hsame.2⟩

end Inventory

/-- A way to pull one unit. -/
inductive Reading where
  | pull
  | pullMatching (descriptor : Item)
  deriving BEq

namespace Reading

def wanted : Reading → Item → Bool
  | pull, _ => true
  | pullMatching descriptor, item => item == descriptor

theorem wanted_eq {r r' : Reading} (hr : r == r') {i j : Item} (h : i == j) :
    r.wanted i = r'.wanted j := by
  cases r with
  | pull =>
      cases r' with
      | pull => rfl
      | pullMatching e => cases hr
  | pullMatching d =>
      cases r' with
      | pull => cases hr
      | pullMatching e =>
          have hde : d == e := hr
          rw [wanted, wanted, BEq.congr_left h, BEq.congr_right hde]

end Reading

namespace Inventory

variable {slots slots' : List Stack} {a b : Inventory}

/-- Pulls unit after unit, each in its own way, and tells what each pull returned. -/
def readAll : List Reading → Inventory → List (Option Item) × Inventory
  | [], inventory => ([], inventory)
  | reading :: later, inventory =>
      match inventory.pullWanted? reading.wanted with
      | none =>
          let (units, last) := readAll later inventory
          (none :: units, last)
      | some (unit, rest) =>
          let (units, last) := readAll later rest
          (some unit :: units, last)

/-- No sequence of readings tells inventories apart that are the same. -/
theorem readAll_same {readings readings' : List Reading} (hr : readings == readings')
    (h : a == b) :
    (a.readAll readings).1 == (b.readAll readings').1 ∧
      (a.readAll readings).2 == (b.readAll readings').2 := by
  induction readings generalizing readings' a b with
  | nil =>
      cases readings' with
      | nil => exact ⟨rfl, h⟩
      | cons reading later => cases hr
  | cons reading later ih =>
      cases readings' with
      | nil => cases hr
      | cons reading' later' =>
          rw [List.cons_beq_cons, Bool.and_eq_true] at hr
          rcases pullWanted?_cases (Reading.wanted_eq hr.1) h with ⟨ha, hb⟩ | hsome
          · obtain ⟨hunits, hlast⟩ := ih hr.2 h
            simp only [readAll, ha, hb]
            exact ⟨by rwa [List.cons_beq_cons], hlast⟩
          · obtain ⟨i, j, rest, rest', ha, hb, hsame, hrest⟩ := hsome
            obtain ⟨hunits, hlast⟩ := ih hr.2 hrest
            simp only [readAll, ha, hb]
            refine ⟨?_, hlast⟩
            rw [List.cons_beq_cons, Option.some_beq_some, hsame, hunits]
            rfl

/-- Units in the same order, with what they leave. -/
theorem pullMany_same (n : Nat) (h : a == b) :
    List.Forall₂ (fun i j : Item => i == j) (a.pullMany n).1 (b.pullMany n).1 ∧
      (a.pullMany n).2 == (b.pullMany n).2 := by
  induction n generalizing a b with
  | zero => exact ⟨.nil, h⟩
  | succ n ih =>
      rcases pullWanted?_cases (fun _ => rfl) h with ⟨ha, hb⟩ | hsome
      · rw [pullMany_of_none ha, pullMany_of_none hb]
        exact ⟨.nil, h⟩
      · obtain ⟨i, j, rest, rest', ha, hb, hsame, hrest⟩ := hsome
        obtain ⟨hunits, hlast⟩ := ih hrest
        rw [pullMany_succ_of_pull? ha, pullMany_succ_of_pull? hb]
        exact ⟨.cons hsame hunits, hlast⟩

theorem countAll_alike (h : SlotsAlike slots slots') : countAll slots = countAll slots' := by
  induction h with
  | nil => rfl
  | cons hst _ ih =>
      change _ + countAll _ = _ + countAll _
      rw [hst.count_eq, ih]

theorem filter_holds_alike {d e : Item} (hd : d == e) (h : SlotsAlike slots slots') :
    SlotsAlike (slots.filter (·.holds d)) (slots'.filter (·.holds e)) := by
  induction h with
  | nil => exact .nil
  | cons hst _ ih =>
      rw [List.filter_cons, List.filter_cons, hst.holds_eq hd]
      split
      · exact .cons hst ih
      · exact ih

theorem all_isVacant_alike (h : SlotsAlike slots slots') :
    slots.all Stack.isVacant = slots'.all Stack.isVacant := by
  induction h with
  | nil => rfl
  | cons hst _ ih =>
      rw [List.all_cons, List.all_cons, ih, Stack.isVacant, Stack.isVacant, hst.count_eq]

theorem items_alike (h : SlotsAlike slots slots') :
    (slots.filterMap fun s => s.held?.map (·, s.count)) ==
      slots'.filterMap fun s => s.held?.map (·, s.count) := by
  induction h with
  | nil => rfl
  | cons hst _ ih =>
      cases hst with
      | vacant hs ht =>
          simp only [List.filterMap_cons, hs, ht, Option.map_none]
          exact ih
      | held hs ht hsame hcount =>
          simp only [List.filterMap_cons, hs, ht, Option.map_some, List.cons_beq_cons, ih,
            Bool.and_true]
          exact Bool.and_eq_true_iff.2 ⟨hsame, beq_iff_eq.2 hcount⟩

theorem isEmpty_same (h : a == b) : a.isEmpty = b.isEmpty :=
  all_isVacant_alike ((beq_iff_alike a b).1 h)

theorem totalCount_same (h : a == b) : a.totalCount = b.totalCount :=
  countAll_alike ((beq_iff_alike a b).1 h)

theorem countOf_same {d e : Item} (hd : d == e) (h : a == b) : a.countOf d = b.countOf e :=
  countAll_alike (filter_holds_alike hd ((beq_iff_alike a b).1 h))

theorem items_same (h : a == b) : a.items == b.items :=
  items_alike ((beq_iff_alike a b).1 h)

theorem runLengthsFrom_same {current current' : Item} {units units' : List Item}
    (hc : current == current') (h : List.Forall₂ (fun i j : Item => i == j) units units')
    (length : Nat) :
    runLengthsFrom current length units = runLengthsFrom current' length units' := by
  induction h generalizing current current' length with
  | nil => rfl
  | cons hsame _ ih =>
      rw [runLengthsFrom, runLengthsFrom, BEq.congr_left hc, BEq.congr_right hsame, ih hc,
        ih hsame]

theorem runLengths_same {units units' : List Item}
    (h : List.Forall₂ (fun i j : Item => i == j) units units') :
    runLengths units = runLengths units' := by
  cases h with
  | nil => rfl
  | cons hsame hlater => exact runLengthsFrom_same hsame hlater 1

theorem pullRuns_same (h : a == b) :
    a.pullRuns.1 = b.pullRuns.1 ∧ a.pullRuns.2 == b.pullRuns.2 := by
  obtain ⟨hunits, hrest⟩ := pullMany_same a.totalCount h
  rw [pullRuns, pullRuns, pullAll, pullAll, ← totalCount_same h]
  exact ⟨runLengths_same hunits, hrest⟩

/-- The slot that a token goes back to does not depend on what sameness does not tell. -/
theorem surfaces_alike {descriptor token token' : Item} {last last' : List Stack}
    (h : SlotsAlike slots slots') (hs : Surfaces descriptor token slots last)
    (hs' : Surfaces descriptor token' slots' last') : SlotsAlike last last' := by
  have hmatch : ∀ {i j : Item}, i == j → (i == descriptor) = (j == descriptor) := BEq.congr_left
  induction hs generalizing slots' last' with
  | back hheld hsame =>
      cases h with
      | cons hst hrest =>
          have hrel := hst.held?_rel
          rw [hheld] at hrel
          cases hs' with
          | back => exact .cons hst hrest
          | ahead hheld' =>
              rw [hheld'] at hrel
              cases hrel
          | behind hheld' hother =>
              rw [hheld'] at hrel
              have hitem := Option.rel_some_some.1 hrel
              rw [← hmatch hitem, hsame] at hother
              cases hother
  | ahead hheld hpull hsame =>
      cases h with
      | cons hst hrest =>
          have hrel := hst.held?_rel
          rw [hheld] at hrel
          cases hs' with
          | ahead hheld' hpull' =>
              have hfound := pullFrom?_alike hmatch hrest
              rw [hpull, hpull'] at hfound
              obtain ⟨htoken, hlater⟩ := Option.rel_some_some.1 hfound
              exact .cons (Stack.alike_used htoken 1) hlater
          | back hheld' | behind hheld' =>
              rw [hheld'] at hrel
              cases hrel
  | behind hheld hother _ ih =>
      cases h with
      | cons hst hrest =>
          have hrel := hst.held?_rel
          rw [hheld] at hrel
          cases hs' with
          | back hheld' hsame =>
              rw [hheld'] at hrel
              have hitem := Option.rel_some_some.1 hrel
              rw [hmatch hitem, hsame] at hother
              cases hother
          | ahead hheld' =>
              rw [hheld'] at hrel
              cases hrel
          | behind _ _ hlater => exact .cons hst (ih hrest hlater)

end Inventory

namespace RouteTable

/-- A selection finds the same route, and leaves memories that are the same. -/
theorem select_same (table : RouteTable) {a b : Inventory} (ha : a.WithinLimits)
    (hb : b.WithinLimits) (h : a == b) :
    ∃ found memory memory', select table a = .ok found memory ∧
      select table b = .ok found memory' ∧ memory == memory' := by
  induction table with
  | nil => exact ⟨none, a, b, rfl, rfl, h⟩
  | cons route rest ih =>
      have hmatch : ∀ {i j : Item}, i == j → (i == route.descriptor) = (j == route.descriptor) :=
        BEq.congr_left
      rcases Inventory.pullWanted?_cases hmatch h with ⟨hpa, hpb⟩ | hsome
      · obtain ⟨found, memory, memory', hfound, hfound', hsame⟩ := ih
        refine ⟨found.map Fin.succ, memory, memory', ?_, ?_, hsame⟩
        · rw [select_cons_of_none hpa, bind_of_ok hfound]
          rfl
        · rw [select_cons_of_none hpb, bind_of_ok hfound']
          rfl
      · obtain ⟨token, token', mid, mid', hpa, hpb, _, _⟩ := hsome
        obtain ⟨memory, hadd, hs⟩ := Inventory.surfaces_of_pullMatching? ha hpa
        obtain ⟨memory', hadd', hs'⟩ := Inventory.surfaces_of_pullMatching? hb hpb
        refine ⟨_, memory, memory', select_cons_of_pull hpa hadd, select_cons_of_pull hpb hadd', ?_⟩
        exact (Inventory.beq_iff_alike _ _).2
          (Inventory.surfaces_alike ((Inventory.beq_iff_alike a b).1 h) hs hs')

end RouteTable

namespace Inventory

/-- Being the same is an equivalence, and nothing that is read from sound inventories that are
the same tells them apart. -/
theorem sameness_congruence :
    (Equivalence fun a b : Item => (a == b) = true) ∧
    (Equivalence fun a b : Stack => (a == b) = true) ∧
    (Equivalence fun a b : Inventory => (a == b) = true) ∧
    ∀ a b : Inventory, a == b → a.Sound → b.Sound →
      (∀ readings readings' : List Reading, readings == readings' →
        (a.readAll readings).1 == (b.readAll readings').1 ∧
          (a.readAll readings).2 == (b.readAll readings').2) ∧
      (∀ d e : Item, d == e → a.countOf d = b.countOf e) ∧
      a.isEmpty = b.isEmpty ∧ a.totalCount = b.totalCount ∧ a.items == b.items ∧
      a.pullRuns.1 = b.pullRuns.1 ∧ a.pullRuns.2 == b.pullRuns.2 ∧
      ∀ table : RouteTable, ∃ found memory memory', table.select a = .ok found memory ∧
        table.select b = .ok found memory' ∧ memory == memory' := by
  refine ⟨beq_equivalence Item, beq_equivalence Stack, beq_equivalence Inventory, ?_⟩
  intro a b h ha hb
  obtain ⟨hruns, hrest⟩ := pullRuns_same h
  refine ⟨fun _ _ hr => readAll_same hr h, fun _ _ hd => countOf_same hd h, isEmpty_same h,
    totalCount_same h, items_same h, hruns, hrest, ?_⟩
  intro table
  exact table.select_same (withinLimits_of_obeys ha) (withinLimits_of_obeys hb) h

namespace Twins

def stone : Item :=
  .ofKind "stone"

def token : Item :=
  .paper "set(2)"

def first : Inventory :=
  ⟨[.used stone 0, .used (.box ⟨[.used stone 3, .used token 0]⟩) 1, .used token 2]⟩

/-- Other limits, and other memories of what is gone, also in the box. -/
def second : Inventory :=
  ⟨[.fresh, .used ((Item.box ⟨[.used (stone.withLimit 3) 3, .fresh]⟩).withLimit 7) 1,
    .used (token.withLimit 2) 2]⟩

/-- The token comes up to the vacant slot in both. -/
theorem twins_congruence :
    first == second ∧ first.Sound ∧ second.Sound ∧
      (first.readAll [.pullMatching token, .pull, .pull, .pull]).1 ==
        (second.readAll [.pullMatching (token.withLimit 0), .pull, .pull, .pull]).1 ∧
      first.countOf token = second.countOf (token.withLimit 9) ∧
      first.pullRuns.1 = second.pullRuns.1 ∧
      ∃ index memory memory', RouteTable.builtin.select first = .ok (some index) memory ∧
        RouteTable.builtin.select second = .ok (some index) memory' ∧ memory == memory' := by
  obtain ⟨_, _, _, hsame⟩ := sameness_congruence
  obtain ⟨hreads, hcounts, _, _, _, hruns, _, hselect⟩ := hsame first second rfl rfl rfl
  obtain ⟨found, memory, memory', hfirst, hsecond, hmemory⟩ := hselect RouteTable.builtin
  refine ⟨rfl, rfl, rfl, (hreads _ _ rfl).1, hcounts _ _ rfl, hruns, ?_⟩
  cases found with
  | none => cases hfirst
  | some index => exact ⟨index, memory, memory', hfirst, hsecond, hmemory⟩

end Twins
end Inventory
end ChestMachine
