import ChestMachine.Proofs.Counting

/-!
A single stack as a counter of its own, that units are added to and pulled from without a look
at whether it accepts them. Main statement: a stack counts exactly what is added and pulled, up
to the limit of the item that it adopted, unless it holds as many units of the item as a word
can count.
-/
namespace ChestMachine
namespace Stack

variable {s t : Stack} {item held unit : Item}

/-- A unit that is taken is the item held, or becomes it, and the next count is no more than the
limit. -/
theorem added_of_add? (h : s.add? item = some t) :
    t = .used (s.held?.getD item) (s.count + 1) ∧ s.count + 1 ≤ (s.held?.getD item).limit ∧
      ∀ held, s.held? = some held → held == item := by
  cases hs : s.held? with
  | none =>
      simp only [add?, hs, Option.ite_none_left_eq_some, Option.some.injEq, UInt32.not_lt] at h
      refine ⟨h.2.symm, h.1, ?_⟩
      intro other hother
      cases hother
  | some held =>
      simp only [add?, hs, Option.ite_none_right_eq_some, Option.ite_none_left_eq_some,
        Option.some.injEq, UInt32.not_lt] at h
      refine ⟨h.2.2.symm, h.2.1, ?_⟩
      intro other hother
      cases hother
      exact h.1

/-- A unit of the item held is accepted below the limit. -/
theorem accepts_of_held (hs : s.held? = some held) (hsame : held == item)
    (hlt : s.count.toNat < held.limit.toNat) : s.accepts item := by
  have hfull : ¬ held.limit ≤ s.count := by
    rw [UInt32.le_iff_toNat_le]
    omega
  simp only [accepts, hs, hsame, isFull, hfull, decide_false, Bool.not_false, Bool.and_self]

theorem accepts_iff (s : Stack) (item : Item) :
    s.accepts item ↔ (s.isVacant ∧ 1 ≤ item.limit) ∨
      ∃ held, s.held? = some held ∧ held == item ∧ s.count < held.limit := by
  cases hs : s.held? with
  | none =>
      have hpos : 0 < item.limit ↔ 1 ≤ item.limit := by
        rw [UInt32.lt_iff_toNat_lt, UInt32.le_iff_toNat_le]
        rfl
      simp only [accepts, hs, decide_eq_true_eq, isVacant_of_none hs, hpos, reduceCtorEq,
        false_and, exists_false, or_false, true_and]
  | some held =>
      simp only [accepts, hs, isFull, isVacant_of_held hs, Bool.and_eq_true, Bool.not_eq_true',
        decide_eq_false_iff_not, UInt32.not_le, Bool.false_eq_true, false_and, false_or,
        Option.some.injEq, exists_eq_left']

/-- What adding units one by one and pulling them makes of a fresh stack. -/
inductive Reached : Stack → Prop where
  | fresh : Reached .fresh
  | add {s t : Stack} {item : Item} : Reached s → s.add? item = some t → Reached t
  | pull {s t : Stack} {unit : Item} : Reached s → s.pull? = some (unit, t) → Reached t

/-- A stack can be filled up to the limit, one by one. -/
theorem reached_used {n : Nat} (h : n < item.limit.toNat) :
    Reached (.used item (UInt32.ofNat (n + 1))) := by
  induction n with
  | zero =>
      have ha : Stack.fresh.accepts item := by
        rw [accepts_iff]
        exact .inl ⟨rfl, UInt32.le_iff_toNat_le.2 h⟩
      exact Reached.fresh.add (add?_of_accepts ha)
  | succ n ih =>
      have hlimit := item.limit.toNat_lt
      have hlt : UInt32.ofNat (n + 1) < item.limit := by
        rw [UInt32.lt_iff_toNat_lt, UInt32.toNat_ofNat_of_lt' (Nat.lt_trans h hlimit)]
        exact h
      have hnext : UInt32.ofNat (n + 1 + 1) = UInt32.ofNat (n + 1) + 1 := UInt32.ofNat_add (n + 1) 1
      rw [hnext]
      exact (ih (Nat.lt_of_succ_lt h)).add (add?_used hlt)

/-- The count keeps within the limit of the item that was adopted last, also where a unit more
takes it back to zero. -/
theorem count_le_of_reached (h : Reached s) {adopted : Item} (hs : s.adopted? = some adopted) :
    s.count ≤ adopted.limit := by
  induction h generalizing adopted with
  | fresh => cases hs
  | add _ hadd _ =>
      obtain ⟨rfl, hle, _⟩ := added_of_add? hadd
      cases hs
      exact hle
  | @pull s t unit _ hpull ih =>
      obtain ⟨hheld, rfl⟩ := pull?_eq_some_iff.1 hpull
      cases hs
      have hle := ih (adopted?_of_held hheld)
      have hsub := word_toNat_sub_one (count_ne_zero hheld)
      rw [UInt32.le_iff_toNat_le] at hle ⊢
      rw [count_used, hsub]
      omega

/-- One more unit of the item held would leave the range of the word. -/
def Brims (s : Stack) (item : Item) : Prop :=
  s.holds item ∧ s.count.toNat + 1 = UInt32.size

theorem accepts_of_add? (h : s.add? item = some t) (hbrims : ¬ s.Brims item) :
    s.accepts item := by
  obtain ⟨_, hle, hsame⟩ := added_of_add? h
  rw [UInt32.le_iff_toNat_le, UInt32.toNat_add, UInt32.toNat_one] at hle
  have hmax := s.count.toNat_lt
  cases hs : s.held? with
  | none =>
      rw [hs, Option.getD_none, (held?_eq_none_iff s).1 hs] at hle
      rw [accepts_iff]
      exact .inl ⟨isVacant_of_none hs, UInt32.le_iff_toNat_le.2 hle⟩
  | some held =>
      have hfits : s.count.toNat + 1 ≠ UInt32.size := by
        intro hsize
        refine hbrims ⟨?_, hsize⟩
        rw [holds, hs]
        exact hsame held hs
      rw [hs, Option.getD_some, Nat.mod_eq_of_lt (by rw [UInt32.size] at hfits; omega)] at hle
      exact accepts_of_held hs (hsame held hs) hle

theorem addChecked_of_not_brims (h : ¬ s.Brims item) : s.addChecked item = .ok (s.add? item) := by
  have hmax := s.count.toNat_lt
  cases hs : s.held? with
  | none =>
      have hnext : increment s.count = .ok (s.count + 1) := by
        rw [(held?_eq_none_iff s).1 hs]
        rfl
      simp only [addChecked, add?, hs, hnext]
      rfl
  | some held =>
      by_cases hsame : held == item
      · have hholds : s.holds item := by
          rw [holds, hs]
          exact hsame
        have hfits : s.count.toNat + 1 < UInt32.size := by
          have hne : s.count.toNat + 1 ≠ UInt32.size := fun hsize => h ⟨hholds, hsize⟩
          rw [UInt32.size] at hne ⊢
          omega
        have hnext : increment s.count = .ok (s.count + 1) := if_pos hfits
        simp only [addChecked, add?, hs, hsame, if_true, hnext]
        rfl
      · simp only [addChecked, add?, hs, hsame, Bool.false_eq_true, if_false]
        rfl

theorem addChecked_of_brims (h : s.Brims item) : s.addChecked item = .error .above := by
  obtain ⟨hholds, hsize⟩ := h
  have hnext : increment s.count = .error .above := if_neg (Nat.not_lt.2 (Nat.le_of_eq hsize.symm))
  rw [holds] at hholds
  cases hs : s.held? with
  | none =>
      rw [hs] at hholds
      cases hholds
  | some held =>
      rw [hs] at hholds
      simp only [addChecked, hs, hholds, if_true, hnext]
      rfl

/-- A unit is taken exactly if a vacant stack may hold one, or if the stack holds the item below
its limit. The stack holds one unit more then, and no count leaves its word. -/
structure AddsExactly (s : Stack) (item : Item) : Prop where
  taken : (s.add? item).isSome ↔ (s.isVacant ∧ 1 ≤ item.limit) ∨
    ∃ held, s.held? = some held ∧ held == item ∧ s.count < held.limit
  counted : ∀ t, s.add? item = some t →
    t.held? = some (s.held?.getD item) ∧ t.count.toNat = s.count.toNat + 1
  inRange : s.addChecked item = .ok (s.add? item)

theorem addsExactly_iff : s.AddsExactly item ↔ ¬ s.Brims item := by
  constructor
  · intro h hbrims
    have hrange := h.inRange
    rw [addChecked_of_brims hbrims] at hrange
    cases hrange
  · intro h
    refine ⟨?_, ?_, addChecked_of_not_brims h⟩
    · rw [← accepts_iff, Option.isSome_iff_exists]
      exact ⟨fun ⟨t, ht⟩ => accepts_of_add? ht h, fun ha => ⟨_, add?_of_accepts ha⟩⟩
    · intro t ht
      have ha := accepts_of_add? ht h
      rw [add?_of_accepts ha, Option.some.injEq] at ht
      subst ht
      exact ⟨held?_used (count_add_one_ne_zero ha), toNat_count_add_one ha⟩

/-- The unit that was pulled goes back, and nothing tells that it was gone. -/
theorem add?_of_pull? (hle : ∀ held, s.held? = some held → s.count ≤ held.limit)
    (h : s.pull? = some (unit, t)) :
    t.count.toNat + 1 = s.count.toNat ∧ t.add? unit = some s ∧
      t.addChecked unit = .ok (some s) := by
  obtain ⟨hheld, rfl⟩ := pull?_eq_some_iff.1 h
  have hpos := word_toNat_ne_zero (count_ne_zero hheld)
  have hsub := word_toNat_sub_one (count_ne_zero hheld)
  have hlimit := UInt32.le_iff_toNat_le.1 (hle unit hheld)
  have hlt : s.count - 1 < unit.limit := by
    rw [UInt32.lt_iff_toNat_lt]
    omega
  have hback : (used unit (s.count - 1)).add? unit = some s := by
    rw [add?_used hlt, UInt32.sub_add_cancel, ← used_of_held hheld]
  refine ⟨by rw [count_used]; omega, hback, ?_⟩
  rw [addChecked_of_accepts (accepts_used hlt), hback]

/-- A stack that units were added to and pulled from, in any order, never holds more of them
than the item that it adopted allows. Adding counts exactly, but where the word of the count is
used up; pulling always does, and a unit that is pulled can be put back. -/
theorem reached_counts_exactly (h : Reached s) :
    (∀ adopted, s.adopted? = some adopted → s.count ≤ adopted.limit) ∧
    (∀ item, s.AddsExactly item ↔ ¬ (s.holds item ∧ s.count.toNat + 1 = UInt32.size)) ∧
    s.pullChecked = .ok s.pull? ∧
    ∀ unit t, s.pull? = some (unit, t) → t.count.toNat + 1 = s.count.toNat ∧
      t.add? unit = some s ∧ t.addChecked unit = .ok (some s) := by
  have hle : ∀ adopted, s.adopted? = some adopted → s.count ≤ adopted.limit :=
    fun _ => count_le_of_reached h
  refine ⟨hle, fun item => addsExactly_iff, pullChecked_eq s, ?_⟩
  intro unit t hpull
  exact add?_of_pull? (fun held hheld => hle held (adopted?_of_held hheld)) hpull

end Stack

namespace Granary

def grain : Item :=
  (Item.ofKind "grain").withLimit 4294967295

/-- As many grains as a word can count. -/
def sack : Stack :=
  .used grain 4294967295

theorem reached_sack : Stack.Reached sack := by
  have hlimit : 4294967294 < grain.limit.toNat := by decide
  exact Stack.reached_used hlimit

/-- One grain more is taken, and the sack is vacant then. -/
theorem sack_overflows :
    Stack.Reached sack ∧ sack.addChecked grain = .error .above ∧
      sack.add? grain = some (.used grain 0) :=
  ⟨reached_sack, rfl, rfl⟩

/-- It counts anything but a grain more. -/
theorem sack_counts_exactly :
    Stack.Reached sack ∧ ¬ sack.AddsExactly grain ∧ sack.AddsExactly (.ofKind "chaff") ∧
      (Stack.used grain 4294967294).add? grain = some sack := by
  obtain ⟨_, hadds, _, hback⟩ := Stack.reached_counts_exactly reached_sack
  refine ⟨reached_sack, ?_, ?_, (hback grain (.used grain 4294967294) rfl).2.1⟩
  · intro h
    exact (hadds grain).1 h ⟨rfl, rfl⟩
  · rw [hadds]
    intro h
    cases h.1

end Granary
end ChestMachine
