import Mathlib.Data.List.Chain
import ChestMachine.Json.Token

/-!
Reading tokens back. Main statements: what spells a token reads as this token, whatever comes
behind it, as long as that does not go on with a number; and a text that spells tokens, with
any blanks ahead of, between and behind them, is cut into these tokens if no two numbers are
neighbours.
-/
namespace ChestMachine
namespace Json

section Strings

/-- A character stands for itself, or behind a backslash for a letter or for its code. -/
theorem quoteChar_cases (c : Char) :
    (∃ letter, letter ≠ 'u' ∧ escaped? letter = some c.toNat ∧ quoteChar c = ['\\', letter]) ∨
    (c.toNat < 0x20 ∧
      quoteChar c = ['\\', 'u', '0', '0', hexDigit (c.toNat / 16), hexDigit c.toNat]) ∨
    (c ≠ '"' ∧ c ≠ '\\' ∧ ¬ c.toNat < 0x20 ∧ quoteChar c = [c]) := by
  by_cases hshort : c ∈ ['"', '\\', '\n', '\r', '\t', '\x08', '\x0c']
  · left
    simp only [List.mem_cons, List.not_mem_nil, or_false] at hshort
    rcases hshort with rfl | rfl | rfl | rfl | rfl | rfl | rfl
    all_goals
      refine ⟨_, ?_, ?_, rfl⟩
      · decide
      · rfl
  · right
    simp only [List.mem_cons, List.not_mem_nil, or_false, not_or] at hshort
    obtain ⟨hquote, hbackslash, hline, hreturn, htab, hback, hfeed⟩ := hshort
    rw [quoteChar, if_neg hquote, if_neg hbackslash, if_neg hline, if_neg hreturn, if_neg htab,
      if_neg hback, if_neg hfeed]
    by_cases hcontrol : c.toNat < 0x20
    · exact .inl ⟨hcontrol, if_pos hcontrol⟩
    · exact .inr ⟨hquote, hbackslash, hcontrol, if_neg hcontrol⟩

theorem hexValue?_digitChar : ∀ d < 16, hexValue? (Nat.digitChar d) = some d := by
  decide

/-- A control character is its two last hexadecimal digits. -/
theorem hexValue?_control {n : Nat} (h : n < 0x20) :
    hexValue? (hexDigit (n / 16)) = some (n / 16) ∧ hexValue? (hexDigit n) = some (n % 16) := by
  have hhigh : n / 16 % 16 = n / 16 := Nat.mod_eq_of_lt (by omega)
  rw [hexDigit, hexDigit, hhigh]
  exact ⟨hexValue?_digitChar _ (by omega), hexValue?_digitChar _ (by omega)⟩

/-- Every character is spelt so that its code is read. -/
theorem codes?_quoteChar (c : Char) (rest : List Char) :
    codes? (quoteChar c ++ rest) =
      (codes? rest).map fun found => (c.toNat :: found.1, found.2) := by
  rcases quoteChar_cases c with ⟨letter, hletter, hcode, hquote⟩ | ⟨hcontrol, hquote⟩ | hplain
  · rw [hquote, List.cons_append, List.cons_append, List.nil_append, codes?]
    · rw [hcode]
      cases codes? rest <;> rfl
    · intro _ _ _ _ _ h
      exact absurd h hletter
  · obtain ⟨hhigh, hlow⟩ := hexValue?_control hcontrol
    have hzero : hexValue? '0' = some 0 := rfl
    have hcode : ((0 * 16 + 0) * 16 + c.toNat / 16) * 16 + c.toNat % 16 = c.toNat := by omega
    rw [hquote]
    simp only [List.cons_append, List.nil_append, codes?, hzero, hhigh, hlow, hcode,
      Option.bind_eq_bind, Option.bind_some]
    cases codes? rest <;> rfl
  · obtain ⟨hquote, hbackslash, hcontrol, hself⟩ := hplain
    have hallowed : ¬ (c = '\\' ∨ c.toNat < 0x20) := not_or.2 ⟨hbackslash, hcontrol⟩
    rw [hself, List.cons_append, List.nil_append, codes?]
    · rw [if_neg hallowed]
      cases codes? rest <;> rfl
    · exact hquote
    · intro _ _ _ _ _ h
      exact absurd h hbackslash
    · intro _ _ h
      exact absurd h hbackslash

/-- What is spelt between quotes is read up to the closing one. -/
theorem codes?_quoted (cs rest : List Char) :
    codes? (cs.flatMap quoteChar ++ '"' :: rest) = some (cs.map Char.toNat, rest) := by
  induction cs with
  | nil => rw [List.flatMap_nil, List.nil_append, codes?, List.map_nil]
  | cons c cs ih =>
      rw [List.flatMap_cons, List.append_assoc, codes?_quoteChar, ih, Option.map_some,
        List.map_cons]

/-- No character is half of a pair. -/
theorem not_isSurrogate (c : Char) :
    isLowSurrogate c.toNat = false ∧ isHighSurrogate c.toNat = false := by
  have hvalid : c.toNat < 0xd800 ∨ 0xdfff < c.toNat ∧ c.toNat < 0x110000 := c.valid
  simp only [isLowSurrogate, isHighSurrogate, Bool.and_eq_false_iff, decide_eq_false_iff_not]
  omega

theorem chars?_toNat (cs : List Char) : chars? (cs.map Char.toNat) = some cs := by
  induction cs with
  | nil => rw [List.map_nil, chars?]
  | cons c cs ih =>
      obtain ⟨hlow, hhigh⟩ := not_isSurrogate c
      rw [List.map_cons, chars?.eq_def]
      simp only [hlow, hhigh, ih, Bool.false_eq_true, if_false, Option.map_some, Char.ofNat_toNat]

end Strings

section Numbers

/-- The text does not go on with the digits, the fraction or the exponent of a number. -/
def EndsNumber (rest : List Char) : Prop :=
  ∀ c ∈ rest.head?, c.isDigit = false ∧ c ≠ '.' ∧ c ≠ 'e' ∧ c ≠ 'E'

variable {digits rest : List Char}

theorem takeWhile_isDigit (hd : ∀ c ∈ digits, c.isDigit)
    (hr : ∀ c ∈ rest.head?, c.isDigit = false) :
    (digits ++ rest).takeWhile Char.isDigit = digits ∧
      (digits ++ rest).dropWhile Char.isDigit = rest := by
  have hrest : rest.takeWhile Char.isDigit = [] ∧ rest.dropWhile Char.isDigit = rest := by
    cases rest with
    | nil => exact ⟨rfl, rfl⟩
    | cons c rest =>
        rw [List.takeWhile_cons, List.dropWhile_cons, hr c rfl]
        exact ⟨rfl, rfl⟩
  rw [List.takeWhile_append_of_pos hd, List.dropWhile_append_of_pos hd, hrest.1, hrest.2,
    List.append_nil]
  exact ⟨rfl, rfl⟩

theorem skipFraction_of_ends (h : EndsNumber rest) : skipFraction rest = some (false, rest) := by
  unfold skipFraction
  split
  · exact absurd rfl (h _ rfl).2.1
  · rfl

theorem skipExponent_of_ends (h : EndsNumber rest) : skipExponent rest = some (false, rest) := by
  unfold skipExponent
  split
  · exact absurd rfl (h _ rfl).2.2.1
  · exact absurd rfl (h _ rfl).2.2.2
  · rfl

theorem unsigned?_of_digits (hd : ∀ c ∈ digits, c.isDigit) (hn : digits ≠ [])
    (hz : digits.head? = some '0' → digits.length = 1) (hr : EndsNumber rest) :
    unsigned? (digits ++ rest) = some (.natural (Nat.ofDigitChars 10 digits 0), rest) := by
  obtain ⟨htake, hdrop⟩ := takeWhile_isDigit hd fun c hc => (hr c hc).1
  have hstart : ¬ (digits.isEmpty || (digits.head? == some '0' && digits.length > 1)) = true := by
    simp only [Bool.or_eq_true, Bool.and_eq_true, beq_iff_eq, decide_eq_true_eq,
      List.isEmpty_iff, not_or, not_and]
    exact ⟨hn, fun h => by rw [hz h]; omega⟩
  simp only [unsigned?, htake, hdrop, if_neg hstart, skipFraction_of_ends hr,
    Option.bind_eq_bind, Option.bind_some, skipExponent_of_ends hr]
  rfl

/-- Only zero is written with a zero in front. -/
theorem head?_toDigits {n : Nat} (h : n ≠ 0) : (Nat.toDigits 10 n).head? ≠ some '0' := by
  induction n using Nat.strongRecOn with
  | ind n ih =>
      by_cases hn : n < 10
      · rw [Nat.toDigits_of_lt_base hn]
        have hone : ∀ d < 10, d ≠ 0 → d.digitChar ≠ '0' := by decide
        intro hzero
        exact hone n hn h (Option.some.inj hzero)
      · have hquotient : n / 10 ≠ 0 := by omega
        have hlater := ih (n / 10) (by omega) hquotient
        rwa [Nat.toDigits_of_base_le (by decide) (by omega),
          List.head?_append_of_ne_nil _ Nat.toDigits_ne_nil]

theorem isDigit_toDigits (n : Nat) : ∀ c ∈ Nat.toDigits 10 n, c.isDigit :=
  fun _ => Nat.isDigit_of_mem_toDigits (by decide) (by decide)

theorem toDigits_head (n : Nat) :
    ∃ c digits, Nat.toDigits 10 n = c :: digits ∧ c.isDigit := by
  cases hdigits : Nat.toDigits 10 n with
  | nil => exact absurd hdigits Nat.toDigits_ne_nil
  | cons c digits =>
      exact ⟨c, digits, rfl, isDigit_toDigits n c (hdigits ▸ List.mem_cons_self)⟩

theorem unsigned?_toDigits (n : Nat) (hr : EndsNumber rest) :
    unsigned? (Nat.toDigits 10 n ++ rest) = some (.natural n, rest) := by
  have hz : (Nat.toDigits 10 n).head? = some '0' → (Nat.toDigits 10 n).length = 1 := by
    intro hzero
    by_cases hn : n = 0
    · rw [hn]
      rfl
    · exact absurd hzero (head?_toDigits hn)
  rw [unsigned?_of_digits (isDigit_toDigits n) Nat.toDigits_ne_nil hz hr,
    Nat.ofDigitChars_ten_toDigits]

end Numbers

namespace Token

/-- Numbers have no end of their own. -/
def isNumber : Token → Bool
  | .natural _ | .decimal => true
  | _ => false

theorem toList_spelling_natural (n : Nat) : (natural n).spelling.toList = Nat.toDigits 10 n := by
  rw [spelling, Nat.toString_eq_repr, Nat.toList_repr]

theorem toList_spelling_text (s : String) :
    (text (some s)).spelling.toList = '"' :: (s.toList.flatMap quoteChar ++ ['"']) := by
  simp only [spelling, quote, String.toList_append, String.toList_ofList]
  rfl

/-- A text that begins with a digit is read as a number. -/
theorem read?_of_isDigit {c : Char} (h : c.isDigit) (rest : List Char) :
    read? (c :: rest) = unsigned? (c :: rest) := by
  unfold read?
  split
  case h_12 => rfl
  -- All other tokens begin with a character of their own, which is no digit.
  all_goals
    rename_i heq
    injection heq with hc
    subst hc
    cases h

theorem read?_natural (n : Nat) {rest : List Char} (h : EndsNumber rest) :
    read? ((natural n).spelling.toList ++ rest) = some (natural n, rest) := by
  have hread := unsigned?_toDigits n h
  obtain ⟨c, digits, hdigits, hc⟩ := toDigits_head n
  rw [hdigits, List.cons_append] at hread
  rw [toList_spelling_natural, hdigits, List.cons_append, read?_of_isDigit hc, hread]

theorem read?_decimal {rest : List Char} (h : EndsNumber rest) :
    read? (decimal.spelling.toList ++ rest) = some (decimal, rest) := by
  have hd : ∀ c ∈ ['0'], c.isDigit := List.forall_mem_singleton.2 rfl
  obtain ⟨htake, hdrop⟩ := takeWhile_isDigit hd fun c hc => (h c hc).1
  have hpoint : ∀ c ∈ ('.' :: (['0'] ++ rest)).head?, c.isDigit = false := by
    intro c hc
    cases hc
    rfl
  obtain ⟨htake', hdrop'⟩ := takeWhile_isDigit hd hpoint
  have hfraction : skipFraction ('.' :: (['0'] ++ rest)) = some (true, rest) := by
    simp only [skipFraction, htake, hdrop]
    rfl
  have hspelling : decimal.spelling.toList ++ rest = '0' :: ('.' :: (['0'] ++ rest)) := rfl
  rw [hspelling, read?_of_isDigit rfl, unsigned?, ← List.singleton_append, htake', hdrop',
    hfraction]
  simp only [Option.bind_eq_bind, Option.bind_some, skipExponent_of_ends h]
  rfl

/-- Half of a surrogate pair is read as a string without a value. -/
theorem read?_half (rest : List Char) :
    read? ((text none).spelling.toList ++ rest) = some (text none, rest) := by
  have hspelling : (text none).spelling.toList ++ rest =
      '"' :: '\\' :: 'u' :: 'd' :: '8' :: '0' :: '0' :: '"' :: rest := rfl
  have hzero : hexValue? '0' = some 0 := rfl
  have height : hexValue? '8' = some 8 := rfl
  have hd : hexValue? 'd' = some 13 := rfl
  rw [hspelling, read?, codes?, hzero, height, hd, codes?]
  rfl

/-- A token is read back from its spelling, with the rest of the text left as it is. -/
theorem read?_spelling (token : Token) {rest : List Char} (h : token.isNumber → EndsNumber rest) :
    read? (token.spelling.toList ++ rest) = some (token, rest) := by
  cases token with
  | openObject => rfl
  | closeObject => rfl
  | openArray => rfl
  | closeArray => rfl
  | colon => rfl
  | comma => rfl
  | null => rfl
  | bool value => cases value <;> rfl
  | natural n => exact read?_natural n (h rfl)
  | decimal => exact read?_decimal (h rfl)
  | text value =>
      cases value with
      | none => exact read?_half rest
      | some s =>
          rw [toList_spelling_text, List.cons_append, List.append_assoc, List.singleton_append,
            read?, codes?_quoted, Option.map_some]
          simp only [chars?_toNat, Option.map_some, String.ofList_toList]

/-- No token begins with a blank, and only numbers begin as a number might go on. -/
theorem spelling_head (token : Token) :
    ∃ c cs, token.spelling.toList = c :: cs ∧ isBlank c = false ∧
      (token.isNumber = false → c.isDigit = false ∧ c ≠ '.' ∧ c ≠ 'e' ∧ c ≠ 'E') := by
  cases token with
  | natural n =>
      obtain ⟨c, digits, hdigits, hc⟩ := toDigits_head n
      refine ⟨c, digits, (toList_spelling_natural n).trans hdigits, ?_, nofun⟩
      have hblank : c ≠ ' ' ∧ c ≠ '\t' ∧ c ≠ '\n' ∧ c ≠ '\r' := by
        refine ⟨?_, ?_, ?_, ?_⟩ <;> exact fun h => absurd (h ▸ hc) (by decide)
      simp only [isBlank, Bool.or_eq_false_iff, beq_eq_false_iff_ne, and_assoc]
      exact hblank
  | text value =>
      cases value with
      | none => exact ⟨_, _, rfl, by decide, fun _ => by decide⟩
      | some s => exact ⟨_, _, toList_spelling_text s, by decide, fun _ => by decide⟩
  | bool value => cases value <;> exact ⟨_, _, rfl, by decide, fun _ => by decide⟩
  | openObject | closeObject | openArray | closeArray | colon | comma | null | decimal =>
      exact ⟨_, _, rfl, by decide, by decide⟩

end Token

section Spread

/-- What may stand between two tokens. -/
def Gap : Type :=
  { blanks : List Char // blanks.all isBlank }

def Gap.empty : Gap :=
  ⟨[], rfl⟩

/-- The tokens in order, with a gap ahead of each of them and one behind the last. -/
def spread (gap : Nat → Gap) : List Token → List Char
  | [] => (gap 0).val
  | token :: tokens =>
      (gap 0).val ++ (token.spelling.toList ++ spread (fun i => gap (i + 1)) tokens)

/-- Two numbers run into each other. -/
def Apart (token next : Token) : Prop :=
  ¬ (token.isNumber ∧ next.isNumber)

variable {gap : Nat → Gap} {token : Token} {tokens : List Token}

theorem dropWhile_gap (blanks : Gap) (rest : List Char) :
    (blanks.val ++ rest).dropWhile isBlank = rest.dropWhile isBlank :=
  List.dropWhile_append_of_pos (List.all_eq_true.1 blanks.property)

/-- Blanks end a number, and so does any token but another number. -/
theorem endsNumber_spread (h : ∀ next ∈ tokens.head?, next.isNumber = false) :
    EndsNumber (spread gap tokens) := by
  have hblank : ∀ c, isBlank c → c.isDigit = false ∧ c ≠ '.' ∧ c ≠ 'e' ∧ c ≠ 'E' := by
    intro c hc
    simp only [isBlank, Bool.or_eq_true, beq_iff_eq] at hc
    rcases hc with ((rfl | rfl) | rfl) | rfl <;> decide
  have hgap := List.all_eq_true.1 (gap 0).property
  cases tokens with
  | nil => exact fun c hc => hblank c (hgap c (List.mem_of_head? hc))
  | cons next tokens =>
      intro c hc
      rw [spread, List.head?_append] at hc
      cases hfirst : (gap 0).val.head? with
      | some blank =>
          rw [hfirst] at hc
          cases hc
          exact hblank c (hgap c (List.mem_of_head? hfirst))
      | none =>
          obtain ⟨first, cs, hspelling, -, hends⟩ := next.spelling_head
          rw [hfirst, Option.none_or, hspelling] at hc
          cases hc
          exact hends (h next rfl)

/-- The tokens are found again, wherever the gaps are. -/
theorem scan_spread (h : tokens.IsChain Apart) : scan (spread gap tokens) = some tokens := by
  induction tokens generalizing gap with
  | nil =>
      have hend : (spread gap []).dropWhile isBlank = [] := by
        rw [spread, ← List.append_nil (gap 0).val, dropWhile_gap, List.dropWhile_nil]
      rw [scan, hend]
      rfl
  | cons token tokens ih =>
      obtain ⟨hnext, hlater⟩ := List.isChain_cons.1 h
      obtain ⟨c, cs, hspelling, hblank, -⟩ := token.spelling_head
      have hstart : (spread gap (token :: tokens)).dropWhile isBlank =
          token.spelling.toList ++ spread (fun i => gap (i + 1)) tokens := by
        rw [spread, dropWhile_gap, hspelling, List.cons_append,
          List.dropWhile_cons_of_neg (by rw [hblank]; decide)]
      have hread : Token.read? ((spread gap (token :: tokens)).dropWhile isBlank) =
          some (token, spread (fun i => gap (i + 1)) tokens) := by
        rw [hstart]
        refine token.read?_spelling fun hnumber => endsNumber_spread fun next hhead => ?_
        exact Bool.eq_false_iff.2 fun hnumber' => hnext next hhead ⟨hnumber, hnumber'⟩
      rw [scan, if_neg (by rw [hstart, hspelling]; exact Bool.false_ne_true)]
      split
      · rename_i hfail
        rw [hread] at hfail
        cases hfail
      · rename_i hfound
        rw [hread] at hfound
        cases hfound
        rw [ih hlater]
        rfl

end Spread
end Json
end ChestMachine
