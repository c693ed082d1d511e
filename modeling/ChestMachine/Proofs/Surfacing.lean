import ChestMachine.Proofs.Route

/-!
Pulling a token and putting it straight back, as a selection does. Main statements: the
token goes back to the slot that it came from, unless a vacant slot lies ahead of that, which
it is then alone in; no other slot changes; and this is all that a selection does to memory.
-/
namespace ChestMachine

namespace Stack

variable {s t : Stack} {item : Item}

/-- A unit that is pulled goes back to where it was. -/
theorem add?_of_held (h : s.WithinLimit) (hheld : s.held? = some item) :
    (used item (s.count - 1)).accepts item ∧ (used item (s.count - 1)).add? item = some s := by
  have hne := count_ne_zero hheld
  have hle := UInt32.le_iff_toNat_le.1 (h item hheld)
  have hlt : s.count - 1 < item.limit := by
    have hpos := word_toNat_ne_zero hne
    rw [UInt32.lt_iff_toNat_lt, word_toNat_sub_one hne]
    omega
  refine ⟨accepts_used hlt, ?_⟩
  rw [add?_used hlt, UInt32.sub_add_cancel, ← used_of_held hheld]

end Stack

namespace Inventory

variable {inventory inventory' : Inventory} {item : Item}

/-- The slots after a token that the descriptor stands for was pulled and put back. -/
inductive Surfaces (descriptor token : Item) : List Stack → List Stack → Prop where
  /-- The first slot had it, and takes it back. -/
  | back {s : Stack} {rest : List Stack} : s.held? = some token → token == descriptor →
      Surfaces descriptor token (s :: rest) (s :: rest)
  /-- The first slot was vacant, and takes it from the slot that had it. -/
  | ahead {s : Stack} {rest rest' : List Stack} : s.held? = none →
      pullFrom? (· == descriptor) rest = some (token, rest') → token == descriptor →
      Surfaces descriptor token (s :: rest) (.used token 1 :: rest')
  /-- The first slot has something else in it, and has no part in this. -/
  | behind {s : Stack} {held : Item} {rest rest' : List Stack} : s.held? = some held →
      (held == descriptor) = false → Surfaces descriptor token rest rest' →
      Surfaces descriptor token (s :: rest) (s :: rest')

variable {descriptor token : Item} {slots mid : List Stack}

theorem pullFrom?_cons_of_vacant {wanted : Item → Bool} {s : Stack} (h : s.held? = none)
    (rest : List Stack) :
    pullFrom? wanted (s :: rest) =
      (pullFrom? wanted rest).map fun found => (found.1, s :: found.2) := by
  have hnone := (Stack.pull?_eq_none_iff s).2 ((Stack.held?_eq_none_iff s).1 h)
  simp only [pullFrom?, hnone]

theorem pullFrom?_cons_of_held {wanted : Item → Bool} {s : Stack} {held : Item}
    (h : s.held? = some held) (rest : List Stack) :
    pullFrom? wanted (s :: rest) =
      if wanted held then some (held, .used held (s.count - 1) :: rest)
      else (pullFrom? wanted rest).map fun found => (found.1, s :: found.2) := by
  have hpull := Stack.pull?_eq_some_iff.2 ⟨h, rfl⟩
  simp only [pullFrom?, hpull]

theorem limit_pos_of_pullFrom? {wanted : Item → Bool} (hw : ∀ s ∈ slots, s.WithinLimit)
    (h : pullFrom? wanted slots = some (token, mid)) : wanted token ∧ 0 < token.limit := by
  obtain ⟨front, s, t, back, rfl, _, _, hwanted, hpull⟩ := pullFrom?_split h
  have hs := hw s (List.mem_append_right _ List.mem_cons_self)
  exact ⟨hwanted, Stack.limit_pos_of_held hs (Stack.held?_of_pull? hpull)⟩

/-- A token that was pulled goes back, and this is where. -/
theorem surfaces_of_pullFrom? (hw : ∀ s ∈ slots, s.WithinLimit)
    (h : pullFrom? (· == descriptor) slots = some (token, mid)) :
    ∃ slots', addTo? token mid = some slots' ∧ Surfaces descriptor token slots slots' := by
  induction slots generalizing mid with
  | nil => cases h
  | cons s rest ih =>
      obtain ⟨hsame, hpos⟩ := limit_pos_of_pullFrom? hw h
      obtain ⟨hs, hrest⟩ := List.forall_mem_cons.1 hw
      cases hheld : s.held? with
      | none =>
          rw [pullFrom?_cons_of_vacant hheld] at h
          obtain ⟨⟨_, rest'⟩, hpull, heq⟩ := Option.map_eq_some_iff.1 h
          obtain ⟨rfl, rfl⟩ := Prod.mk.inj heq.symm
          have haccepts : s.accepts token := by
            simpa only [Stack.accepts, hheld] using decide_eq_true hpos
          have hadd : s.add? token = some (.used token 1) := by
            rw [Stack.add?_of_accepts haccepts, hheld, (Stack.held?_eq_none_iff s).1 hheld]
            rfl
          refine ⟨.used token 1 :: rest', ?_, .ahead hheld hpull hsame⟩
          simp only [addTo?, if_pos haccepts, hadd, Option.map_some]
      | some held =>
          rw [pullFrom?_cons_of_held hheld] at h
          by_cases hwanted : held == descriptor
          · rw [if_pos hwanted] at h
            cases h
            obtain ⟨haccepts, hadd⟩ := Stack.add?_of_held hs hheld
            refine ⟨s :: rest, ?_, .back hheld hwanted⟩
            simp only [addTo?, if_pos haccepts, hadd, Option.map_some]
          · rw [if_neg hwanted] at h
            obtain ⟨⟨_, rest'⟩, hpull, heq⟩ := Option.map_eq_some_iff.1 h
            obtain ⟨rfl, rfl⟩ := Prod.mk.inj heq.symm
            obtain ⟨slots', hadd, hsurfaces⟩ := ih hrest hpull
            have hother : (held == token) = false := by
              rw [BEq.congr_right hsame]
              exact Bool.eq_false_iff.2 hwanted
            have hrefuses : s.accepts token = false := by
              simp only [Stack.accepts, hheld, hother, Bool.false_and]
            refine ⟨s :: slots', ?_, .behind hheld (Bool.eq_false_iff.2 hwanted) hsurfaces⟩
            simp only [addTo?, hrefuses, Bool.false_eq_true, if_false, hadd, Option.map_some]

theorem surfaces_of_pullMatching? {rest : Inventory} (hw : inventory.WithinLimits)
    (h : inventory.pullMatching? descriptor = some (token, rest)) :
    ∃ inventory', rest.add? token = some inventory' ∧
      Surfaces descriptor token inventory.slots inventory'.slots := by
  obtain ⟨⟨found, mid⟩, hpull, heq⟩ := Option.map_eq_some_iff.1 h
  cases heq
  obtain ⟨slots', hadd, hsurfaces⟩ := surfaces_of_pullFrom? hw hpull
  exact ⟨⟨slots'⟩, congrArg (Option.map Inventory.mk) hadd, hsurfaces⟩

theorem add?_of_pullMatching? {rest : Inventory} (hw : inventory.WithinLimits)
    (h : inventory.pullMatching? descriptor = some (token, rest)) :
    ∃ inventory', rest.add? token = some inventory' := by
  obtain ⟨inventory', hadd, _⟩ := surfaces_of_pullMatching? hw h
  exact ⟨inventory', hadd⟩

end Inventory

namespace RouteTable

variable {memory memory' : Inventory}

/-- A selection finds nothing, or it brings up a token of the route that it finds. -/
theorem select_surfaces (table : RouteTable) (hw : memory.WithinLimits) :
    select table memory = .ok none memory ∨
      ∃ index token memory', select table memory = .ok (some index) memory' ∧
        Inventory.Surfaces (table.get index).descriptor token memory.slots memory'.slots := by
  refine (select_finds table (Inventory.add?_of_pullMatching? hw)).imp_right ?_
  intro ⟨index, token, mid, memory', hs, hp, ha⟩
  obtain ⟨last, ha', hsurfaces⟩ := Inventory.surfaces_of_pullMatching? hw hp
  rw [ha, Option.some.injEq] at ha'
  subst ha'
  exact ⟨index, token, memory', hs, hsurfaces⟩

theorem surfaces_of_select {table : RouteTable} {index : Fin table.length}
    (hw : memory.WithinLimits) (h : select table memory = .ok (some index) memory') :
    ∃ token,
      Inventory.Surfaces (table.get index).descriptor token memory.slots memory'.slots := by
  cases select_surfaces table hw with
  | inl hnone =>
      rw [h] at hnone
      cases hnone
  | inr hsome =>
      obtain ⟨found, token, last, hselect, hsurfaces⟩ := hsome
      rw [h] at hselect
      cases hselect
      exact ⟨token, hsurfaces⟩

end RouteTable
end ChestMachine
