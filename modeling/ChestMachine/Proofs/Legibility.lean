import ChestMachine.Proofs.Rules
import ChestMachine.Proofs.Similarity

/-!
What can be told from the text of an inventory. Names may hold any character, and are not
escaped. Main statement: if no name holds a character that texts are divided by, then
inventories with the same text are similar. A text is read from the left: whatever is written
behind an item, a payload or an inventory, the text tells which one it is and where it ends.
-/
namespace ChestMachine
open Stack (occupiedText behindText)

/-- The characters that divide a text. -/
def marks : List Char :=
  ['(', ')', '[', ']', '<', '>', ',', ':', '\"', '.', ' ']

def isUnmarked (text : String) : Bool :=
  text.toList.all fun c => decide (c ∉ marks)

def Payload.isPlain : Payload → Bool
  | .tag text => isUnmarked text
  | .nothing | .box _ => true

/-- Kind, label and tag are free of marks. -/
def Item.isPlain (item : Item) : Bool :=
  isUnmarked item.kind && isUnmarked item.label && item.payload.isPlain

theorem isUnmarked_iff (text : String) : isUnmarked text ↔ ∀ c ∈ text.toList, c ∉ marks := by
  simp only [isUnmarked, List.all_eq_true, decide_eq_true_eq]

theorem Item.isPlain_iff (item : Item) :
    item.isPlain ↔ isUnmarked item.kind ∧ isUnmarked item.label ∧ item.payload.isPlain := by
  rw [isPlain, Bool.and_eq_true, Bool.and_eq_true, and_assoc]

section Names

/-- A mark comes next, if anything does. -/
def Marked (r : List Char) : Prop :=
  ∀ c ∈ r.head?, c ∈ marks

variable {name name' : String} {w w' r r' : List Char} {c : Char}

theorem marked_cons (h : c ∈ marks) (r : List Char) : Marked (c :: r) := by
  intro d hd
  cases hd
  exact h

/-- Words without marks end where a mark comes next. -/
theorem append_inj_of_marked (hw : ∀ c ∈ w, c ∉ marks) (hw' : ∀ c ∈ w', c ∉ marks)
    (hr : Marked r) (hr' : Marked r') (h : w ++ r = w' ++ r') : w = w' ∧ r = r' := by
  induction w generalizing w' with
  | nil =>
      cases w' with
      | nil => exact ⟨rfl, h⟩
      | cons c rest =>
          rw [List.nil_append] at h
          exact absurd (hr c (by rw [h]; rfl)) (hw' c List.mem_cons_self)
  | cons c w ih =>
      cases w' with
      | nil =>
          rw [List.nil_append] at h
          exact absurd (hr' c (by rw [← h]; rfl)) (hw c List.mem_cons_self)
      | cons c' w' =>
          injection h with hc hrest
          subst hc
          obtain ⟨_, hw⟩ := List.forall_mem_cons.1 hw
          obtain ⟨_, hw'⟩ := List.forall_mem_cons.1 hw'
          obtain ⟨rfl, rfl⟩ := ih hw hw' hrest
          exact ⟨rfl, rfl⟩

theorem name_of_text (hn : isUnmarked name) (hn' : isUnmarked name') (hr : Marked r)
    (hr' : Marked r') (h : name.toList ++ r = name'.toList ++ r') : name = name' ∧ r = r' := by
  obtain ⟨hname, hrest⟩ :=
    append_inj_of_marked ((isUnmarked_iff name).1 hn) ((isUnmarked_iff name').1 hn') hr hr' h
  exact ⟨String.toList_inj.1 hname, hrest⟩

/-- A name that is closed by a mark. -/
theorem closed_name_of_text (hn : isUnmarked name) (hn' : isUnmarked name') (hc : c ∈ marks)
    (h : name.toList ++ c :: r = name'.toList ++ c :: r') : name = name' ∧ r = r' := by
  obtain ⟨hname, hrest⟩ := name_of_text hn hn' (marked_cons hc r) (marked_cons hc r') h
  exact ⟨hname, (List.cons.inj hrest).2⟩

end Names

section Label

/-- How an item goes on after its kind. -/
def labelText (kind label : String) : String :=
  if kind = label then "" else ": \"" ++ label ++ "\""

theorem Item.text_mk (kind label : String) (limit : UInt32) (payload : Payload) :
    Item.text ⟨kind, label, limit, payload⟩ =
      kind ++ labelText kind label ++ payload.suffix := rfl

variable {kind label label' : String} {r r' : List Char}

theorem labelText_self (kind : String) : labelText kind kind = "" := if_pos rfl

theorem toList_labelText (h : kind ≠ label) (r : List Char) :
    (labelText kind label).toList ++ r = ':' :: ' ' :: '\"' :: (label.toList ++ '\"' :: r) := by
  rw [labelText, if_neg h]
  simp only [String.toList_append, List.append_assoc]
  rfl

theorem marked_labelText (kind label : String) (h : Marked r) :
    Marked ((labelText kind label).toList ++ r) := by
  by_cases hk : kind = label
  · rw [hk, labelText_self]
    exact h
  · rw [toList_labelText hk]
    exact marked_cons (by decide) _

/-- A label that is left out is the kind. -/
theorem label_of_text (hl : isUnmarked label) (hl' : isUnmarked label') (hr : r.head? ≠ some ':')
    (hr' : r'.head? ≠ some ':')
    (h : (labelText kind label).toList ++ r = (labelText kind label').toList ++ r') :
    label = label' ∧ r = r' := by
  by_cases hk : kind = label
  · subst hk
    rw [labelText_self] at h
    by_cases hk' : kind = label'
    · subst hk'
      rw [labelText_self] at h
      exact ⟨rfl, h⟩
    · rw [toList_labelText hk'] at h
      exact absurd (congrArg List.head? h) hr
  · by_cases hk' : kind = label'
    · subst hk'
      rw [labelText_self, toList_labelText hk] at h
      exact absurd (congrArg List.head? h).symm hr'
    · rw [toList_labelText hk, toList_labelText hk'] at h
      simp only [List.cons.injEq, true_and] at h
      exact closed_name_of_text hl hl' (by decide) h

end Label

section Count

/-- How a stack goes on after its item. -/
def countText (count : UInt32) : String :=
  if count = 1 then ")" else ", " ++ toString count.toNat ++ ")"

variable {m n : UInt32} {r r' : List Char}

theorem countText_one : countText 1 = ")" := if_pos rfl

theorem toList_countText (h : n ≠ 1) (r : List Char) :
    (countText n).toList ++ r = ',' :: ' ' :: (Nat.toDigits 10 n.toNat ++ ')' :: r) := by
  rw [countText, if_neg h]
  simp only [String.toList_append, Nat.toString_eq_repr, Nat.toList_repr, List.append_assoc]
  rfl

theorem not_mem_marks_of_toDigits (n : Nat) : ∀ c ∈ Nat.toDigits 10 n, c ∉ marks := by
  intro c hc hmark
  have hdigit := Nat.isDigit_of_mem_toDigits (by decide) (by decide) hc
  have hmarks : marks.all fun c => !c.isDigit := rfl
  have hother := List.all_eq_true.1 hmarks c hmark
  rw [hdigit] at hother
  cases hother

theorem toDigits_inj {m n : Nat} (h : Nat.toDigits 10 m = Nat.toDigits 10 n) : m = n :=
  calc
    m = Nat.ofDigitChars 10 (Nat.toDigits 10 m) 0 := Nat.ofDigitChars_ten_toDigits.symm
    _ = Nat.ofDigitChars 10 (Nat.toDigits 10 n) 0 := by rw [h]
    _ = n := Nat.ofDigitChars_ten_toDigits

/-- A count that is left out is one. -/
theorem count_of_text (h : (countText m).toList ++ r = (countText n).toList ++ r') :
    m = n ∧ r = r' := by
  by_cases hm : m = 1
  · subst hm
    by_cases hn : n = 1
    · subst hn
      exact ⟨rfl, List.append_cancel_left h⟩
    · rw [countText_one, toList_countText hn] at h
      cases congrArg List.head? h
  · by_cases hn : n = 1
    · subst hn
      rw [countText_one, toList_countText hm] at h
      cases congrArg List.head? h
    · rw [toList_countText hm, toList_countText hn] at h
      simp only [List.cons.injEq, true_and] at h
      obtain ⟨hdigits, hrest⟩ :=
        append_inj_of_marked (not_mem_marks_of_toDigits _) (not_mem_marks_of_toDigits _)
          (marked_cons (by decide) r) (marked_cons (by decide) r') h
      exact ⟨UInt32.toNat_inj.1 (toDigits_inj hdigits), (List.cons.inj hrest).2⟩

end Count

/-- The text of an item ends here. -/
def Closes (r : List Char) : Prop :=
  r.head? = some ')' ∨ r.head? = some ','

/-- The text tells the item, and where it ends. -/
def Item.Told (a : Item) : Prop :=
  ∀ (b : Item) (r r' : List Char), b.obeys Item.isPlain → Closes r → Closes r' →
    a.text.toList ++ r = b.text.toList ++ r' → a.Similar b ∧ r = r'

def Payload.Told (p : Payload) : Prop :=
  ∀ (q : Payload) (r r' : List Char), q.isPlain → q.obeys Item.isPlain → Closes r → Closes r' →
    p.suffix.toList ++ r = q.suffix.toList ++ r' → p.Similar q ∧ r = r'

/-- The bracket at the end closes an inventory, so that anything may come next. -/
def Inventory.Told (a : Inventory) : Prop :=
  ∀ (b : Inventory) (r r' : List Char), b.obeys Item.isPlain →
    a.text.toList ++ r = b.text.toList ++ r' → a.Similar b ∧ r = r'

theorem closes_countText (count : UInt32) (r : List Char) :
    Closes ((countText count).toList ++ r) := by
  by_cases h : count = 1
  · rw [h, countText_one]
    exact .inl rfl
  · rw [toList_countText h]
    exact .inr rfl

theorem Inventory.toList_text (inventory : Inventory) (r : List Char) :
    inventory.text.toList ++ r = '[' :: ((occupiedText inventory.occupied).toList ++ ']' :: r) := by
  rw [text_eq_occupied]
  simp only [String.toList_append, List.append_assoc]
  rfl

namespace Payload

variable {p : Payload} {r r' : List Char}

theorem toList_suffix_tag (text : String) (r : List Char) :
    (tag text).suffix.toList ++ r = ' ' :: '<' :: (text.toList ++ '>' :: r) := by
  rw [suffix]
  simp only [String.toList_append, List.append_assoc]
  rfl

theorem toList_suffix_box (contents : Inventory) (r : List Char) :
    (box contents).suffix.toList ++ r = ' ' :: '<' :: (contents.text.toList ++ '>' :: r) := by
  rw [suffix]
  simp only [String.toList_append, List.append_assoc]
  rfl

theorem head?_suffix (hp : p ≠ nothing) (r : List Char) :
    (p.suffix.toList ++ r).head? = some ' ' := by
  cases p with
  | nothing => exact absurd rfl hp
  | tag text =>
      rw [toList_suffix_tag]
      rfl
  | box contents =>
      rw [toList_suffix_box]
      rfl

theorem mem_head?_suffix (p : Payload) (h : Closes r) :
    ∀ c ∈ (p.suffix.toList ++ r).head?, c = ' ' ∨ c = ')' ∨ c = ',' := by
  intro c hc
  by_cases hp : p = nothing
  · subst hp
    rcases h with h | h
    · exact .inr (.inl (Option.some.inj (hc.symm.trans h)))
    · exact .inr (.inr (Option.some.inj (hc.symm.trans h)))
  · exact .inl (Option.some.inj (hc.symm.trans (head?_suffix hp r)))

theorem marked_suffix (p : Payload) (h : Closes r) : Marked (p.suffix.toList ++ r) := by
  intro c hc
  rcases mem_head?_suffix p h c hc with rfl | rfl | rfl <;> decide

theorem head?_suffix_ne (p : Payload) (h : Closes r) :
    (p.suffix.toList ++ r).head? ≠ some ':' := by
  intro hc
  rcases mem_head?_suffix p h ':' hc with h | h | h <;> cases h

/-- A payload does not read as the end of an item. -/
theorem suffix_ne_nothing (hp : p ≠ nothing) (hr : Closes r) (r' : List Char) :
    p.suffix.toList ++ r' ≠ nothing.suffix.toList ++ r := by
  intro h
  have hhead := head?_suffix hp r'
  rw [h] at hhead
  rcases hr with hr | hr <;> cases hr.symm.trans hhead

/-- A tag without marks does not read as an inventory. -/
theorem tag_ne_box {text : String} (ht : isUnmarked text) (contents : Inventory) :
    (tag text).suffix.toList ++ r ≠ (box contents).suffix.toList ++ r' := by
  intro h
  rw [toList_suffix_tag, toList_suffix_box, Inventory.toList_text] at h
  simp only [List.cons.injEq, true_and] at h
  have hempty : ∀ c ∈ ([] : List Char), c ∉ marks := nofun
  obtain ⟨_, hrest⟩ := append_inj_of_marked ((isUnmarked_iff text).1 ht) hempty
    (marked_cons (by decide) r) (marked_cons (by decide) _) h
  cases hrest

theorem told_nothing : nothing.Told := by
  intro q r r' _ _ hr _ h
  cases q with
  | nothing => exact ⟨.nothing, h⟩
  | tag _ | box _ => exact absurd h.symm (suffix_ne_nothing (by nofun) hr r')

theorem told_tag {text : String} (ht : isUnmarked text) : (tag text).Told := by
  intro q r r' hq _ _ hr' h
  cases q with
  | nothing => exact absurd h (suffix_ne_nothing (by nofun) hr' r)
  | tag text' =>
      rw [toList_suffix_tag, toList_suffix_tag] at h
      simp only [List.cons.injEq, true_and] at h
      obtain ⟨rfl, hrest⟩ := closed_name_of_text ht hq (by decide) h
      exact ⟨.tag text, hrest⟩
  | box contents => exact absurd h (tag_ne_box ht contents)

theorem told_box {contents : Inventory} (hc : contents.Told) : (box contents).Told := by
  intro q r r' hq hobeys _ hr' h
  cases q with
  | nothing => exact absurd h (suffix_ne_nothing (by nofun) hr' r)
  | tag text => exact absurd h.symm (tag_ne_box hq contents)
  | box contents' =>
      rw [toList_suffix_box, toList_suffix_box] at h
      simp only [List.cons.injEq, true_and] at h
      obtain ⟨hsimilar, hrest⟩ := hc contents' _ _ hobeys h
      exact ⟨.box hsimilar, (List.cons.inj hrest).2⟩

end Payload

namespace Item

theorem told_of_payload {item : Item} (hplain : item.isPlain) (hp : item.payload.Told) :
    item.Told := by
  intro b r r' hb hr hr' h
  obtain ⟨kind, label, limit, p⟩ := item
  obtain ⟨kind', label', limit', q⟩ := b
  obtain ⟨hplain', hobeys⟩ := (obeys_iff _).1 hb
  obtain ⟨hkind, hlabel, _⟩ : isUnmarked kind ∧ isUnmarked label ∧ p.isPlain :=
    (isPlain_iff _).1 hplain
  obtain ⟨hkind', hlabel', hpayload'⟩ : isUnmarked kind' ∧ isUnmarked label' ∧ q.isPlain :=
    (isPlain_iff _).1 hplain'
  rw [text_mk, text_mk] at h
  simp only [String.toList_append, List.append_assoc] at h
  obtain ⟨rfl, hlabels⟩ := name_of_text hkind hkind' (marked_labelText _ _ (p.marked_suffix hr))
    (marked_labelText _ _ (q.marked_suffix hr')) h
  obtain ⟨rfl, hsuffixes⟩ :=
    label_of_text hlabel hlabel' (p.head?_suffix_ne hr) (q.head?_suffix_ne hr') hlabels
  obtain ⟨hsimilar, hrest⟩ := hp q r r' hpayload' hobeys hr hr' hsuffixes
  exact ⟨.mk hsimilar, hrest⟩

theorem count_of_told {a b : Item} {m n : UInt32} {r r' : List Char} (ha : a.Told)
    (hb : b.obeys isPlain)
    (h : a.text.toList ++ ((countText m).toList ++ r) =
      b.text.toList ++ ((countText n).toList ++ r')) : a.Similar b ∧ m = n ∧ r = r' := by
  obtain ⟨hsimilar, hcount⟩ := ha b _ _ hb (closes_countText m r) (closes_countText n r') h
  exact ⟨hsimilar, count_of_text hcount⟩

end Item

section Slots

variable {a : Item} {m : UInt32} {i j : Nat} {rows rows' : List (Nat × Item × UInt32)}
  {r r' : List Char}

/-- A gap and a comma by itself are told apart by what follows. -/
theorem Lead.of_text {p q : Prop} [Decidable p] [Decidable q]
    (h : (if p then gap else stack).text.toList ++ '(' :: r =
      (if q then gap else stack).text.toList ++ '(' :: r') : (p ↔ q) ∧ r = r' := by
  have hgap : gap.text.toList = [',', '.', '.', '.', ','] := rfl
  have hstack : stack.text.toList = [','] := rfl
  by_cases hp : p <;> by_cases hq : q <;>
    simp only [hp, hq, if_true, if_false, hgap, hstack] at h
  · exact ⟨iff_of_true hp hq, by simpa using h⟩
  · cases h
  · cases h
  · exact ⟨iff_of_false hp hq, by simpa using h⟩

/-- Each slot has units in it, of an item that is good. -/
def AllHold (good : Item → Prop) (rows : List (Nat × Item × UInt32)) : Prop :=
  ∀ row ∈ rows, row.2.2 ≠ 0 ∧ good row.2.1

namespace Stack

theorem toList_text_used (hm : m ≠ 0) (a : Item) (r : List Char) :
    (used a m).text.toList ++ r = '(' :: (a.text.toList ++ ((countText m).toList ++ r)) := by
  have htext : (used a m).text = "(" ++ a.text ++ countText m := by
    rw [text, if_neg hm, countText]
    split
    · rfl
    · simp only [String.append_assoc]
  rw [htext]
  simp only [String.toList_append, List.append_assoc]
  rfl

theorem toList_occupiedText_cons (hm : m ≠ 0) :
    (occupiedText ((i, a, m) :: rows)).toList ++ r =
      '(' :: (a.text.toList ++ ((countText m).toList ++ ((behindText i rows).toList ++ r))) := by
  rw [occupiedText, String.toList_append, List.append_assoc, toList_text_used hm]

theorem toList_behindText_cons (hm : m ≠ 0) :
    (behindText i ((j, a, m) :: rows)).toList ++ r =
      (if i + 1 < j then Lead.gap else .stack).text.toList ++
        '(' :: (a.text.toList ++ ((countText m).toList ++ ((behindText j rows).toList ++ r))) := by
  simp only [behindText, String.toList_append, List.append_assoc, toList_text_used hm,
    List.cons_append]

theorem head?_behindText_cons (i : Nat) (row : Nat × Item × UInt32)
    (rest : List (Nat × Item × UInt32)) :
    ((behindText i (row :: rest)).toList ++ r).head? = some ',' := by
  simp only [behindText, String.toList_append, List.append_assoc]
  split <;> rfl

theorem behind_of_text (hrows : AllHold Item.Told rows)
    (hrows' : AllHold (·.obeys Item.isPlain) rows')
    (h : (behindText i rows).toList ++ ']' :: r = (behindText j rows').toList ++ ']' :: r') :
    SimilarBehind i j rows rows' ∧ r = r' := by
  induction rows generalizing i j rows' with
  | nil =>
      cases rows' with
      | nil => exact ⟨.nil i j, (List.cons.inj h).2⟩
      | cons row' rest' => cases (congrArg List.head? h).trans (head?_behindText_cons _ _ _)
  | cons row rest ih =>
      obtain ⟨i', a, m⟩ := row
      obtain ⟨⟨hm, ha⟩, hrest⟩ := List.forall_mem_cons.1 hrows
      cases rows' with
      | nil => cases (congrArg List.head? h).symm.trans (head?_behindText_cons _ _ _)
      | cons row' rest' =>
          obtain ⟨j', b, n⟩ := row'
          obtain ⟨⟨hn, hb⟩, hrest'⟩ := List.forall_mem_cons.1 hrows'
          rw [toList_behindText_cons hm, toList_behindText_cons hn] at h
          obtain ⟨hgap, hitem⟩ := Lead.of_text h
          obtain ⟨hsimilar, rfl, hbehind⟩ := Item.count_of_told ha hb hitem
          obtain ⟨hsimilar', hr⟩ := ih hrest hrest' hbehind
          exact ⟨.cons hgap hsimilar hsimilar', hr⟩

theorem occupied_of_text (hrows : AllHold Item.Told rows)
    (hrows' : AllHold (·.obeys Item.isPlain) rows')
    (h : (occupiedText rows).toList ++ ']' :: r = (occupiedText rows').toList ++ ']' :: r') :
    SimilarSlots rows rows' ∧ r = r' := by
  cases rows with
  | nil =>
      cases rows' with
      | nil => exact ⟨.nil, (List.cons.inj h).2⟩
      | cons row' rest' =>
          obtain ⟨⟨hn, _⟩, _⟩ := List.forall_mem_cons.1 hrows'
          rw [toList_occupiedText_cons hn] at h
          cases congrArg List.head? h
  | cons row rest =>
      obtain ⟨i, a, m⟩ := row
      obtain ⟨⟨hm, ha⟩, hrest⟩ := List.forall_mem_cons.1 hrows
      rw [toList_occupiedText_cons hm] at h
      cases rows' with
      | nil => cases congrArg List.head? h
      | cons row' rest' =>
          obtain ⟨j, b, n⟩ := row'
          obtain ⟨⟨hn, hb⟩, hrest'⟩ := List.forall_mem_cons.1 hrows'
          rw [toList_occupiedText_cons hn] at h
          obtain ⟨hsimilar, rfl, hbehind⟩ := Item.count_of_told ha hb (List.cons.inj h).2
          obtain ⟨hsimilar', hr⟩ := behind_of_text hrest hrest' hbehind
          exact ⟨.cons hsimilar hsimilar', hr⟩

end Stack

namespace Inventory

theorem allHold_occupied {inventory : Inventory} {good : Item → Prop}
    (h : ∀ s ∈ inventory.slots, ∀ item, s.held? = some item → good item) :
    AllHold good inventory.occupied := by
  intro row hrow
  obtain ⟨⟨s, index⟩, hs, hmap⟩ := List.mem_filterMap.1 hrow
  obtain ⟨item, hheld, rfl⟩ := Option.map_eq_some_iff.1 hmap
  exact ⟨Stack.count_ne_zero hheld, h s (List.fst_mem_of_mem_zipIdx hs) item hheld⟩

theorem told_of_slots {inventory : Inventory}
    (h : ∀ s ∈ inventory.slots, ∀ item, s.held? = some item → item.Told) : inventory.Told := by
  intro b r r' hb htext
  have hplain : AllHold (·.obeys Item.isPlain) b.occupied := by
    apply allHold_occupied
    intro s hs item hheld
    exact ((Stack.obeys_iff s).1 ((obeys_iff b).1 hb s hs) item hheld).2
  rw [toList_text, toList_text] at htext
  obtain ⟨hslots, hr⟩ :=
    Stack.occupied_of_text (allHold_occupied h) hplain (List.cons.inj htext).2
  exact ⟨.mk hslots, hr⟩

end Inventory
end Slots

mutual

theorem Item.told {item : Item} (h : item.obeys Item.isPlain) : item.Told := by
  match item with
  | .mk kind label limit payload =>
      obtain ⟨hplain, hpayload⟩ := (Item.obeys_iff _).1 h
      have hp : payload.isPlain := ((Item.isPlain_iff _).1 hplain).2.2
      exact Item.told_of_payload hplain (Payload.told hp hpayload)

theorem Payload.told {p : Payload} (hp : p.isPlain) (h : p.obeys Item.isPlain) : p.Told := by
  match p with
  | .nothing => exact Payload.told_nothing
  | .tag text => exact Payload.told_tag hp
  | .box contents => exact Payload.told_box (Inventory.told h)

theorem Inventory.told {inventory : Inventory} (h : inventory.obeys Item.isPlain) :
    inventory.Told := by
  match inventory with
  | .mk slots => exact Inventory.told_of_slots (Stack.told_all h)

theorem Stack.told_held {s : Stack} (h : s.obeys Item.isPlain) :
    ∀ item, s.held? = some item → item.Told := by
  match s with
  | .fresh => exact nofun
  | .used item count =>
      intro held hheld
      have hobeys := ((Stack.obeys_iff _).1 h held hheld).2
      obtain ⟨rfl, _⟩ := Stack.used.inj (Stack.used_of_held hheld)
      exact Item.told hobeys

theorem Stack.told_all {slots : List Stack} (h : Stack.allObey Item.isPlain slots) :
    ∀ s ∈ slots, ∀ item, s.held? = some item → item.Told := by
  match slots with
  | [] => exact nofun
  | s :: rest =>
      rw [Stack.allObey, Bool.and_eq_true] at h
      exact List.forall_mem_cons.2 ⟨Stack.told_held h.1, Stack.told_all h.2⟩

end

namespace Inventory

theorem similar_of_text {a b : Inventory} (ha : a.obeys Item.isPlain)
    (hb : b.obeys Item.isPlain) (h : a.text = b.text) : a.Similar b :=
  (told ha b [] [] hb (by rw [h])).1

/-- Similar inventories have the same text. Without marks in the names inside, inventories with
the same text are similar. -/
theorem text_faithful (a b : Inventory) :
    (a.Similar b → a.text = b.text) ∧
      (a.obeys Item.isPlain → b.obeys Item.isPlain → a.text = b.text → a.Similar b) :=
  ⟨text_of_similar, similar_of_text⟩

/-- A tag with marks reads as a closed box. -/
example : ((Item.box (empty 3)).withTag "[]").text = (Item.box (empty 3)).text := by rfl

end Inventory

namespace Shelves

def stone : Item :=
  .ofKind "stone"

/-- A stack, a box with a gap inside behind a gap, and a labeled token next to it. -/
def first : Inventory :=
  ⟨[.fresh, .used stone 12, .fresh,
    .used (.box ⟨[.used stone 1, .fresh, .used (stone.withTag "grey") 2, .fresh]⟩) 1,
    .used (.paper "set") 1]⟩

/-- Other limits and other gaps, and leftovers with marks in their names. -/
def second : Inventory :=
  ⟨[.used (stone.withLimit 16) 12, .fresh, .used (.paper "(), <>") 0,
    .used ((Item.box ⟨[.fresh, .used stone 1, .fresh, .used stone 0,
      .used ((stone.withTag "grey").withLimit 2) 2]⟩).withLimit 7) 1,
    .used (.paper "set") 1, .used (.box first) 0]⟩

theorem shelves_similar :
    first.obeys Item.isPlain ∧ second.obeys Item.isPlain ∧ first.text = second.text ∧
      first.Similar second := by
  have htext : first.text = second.text := by decide
  exact ⟨rfl, rfl, htext, (Inventory.text_faithful first second).2 rfl rfl htext⟩

end Shelves
end ChestMachine
