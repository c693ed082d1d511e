/-!
The tokens of JSON text, their spelling, and how a text is cut into them.
Blanks between tokens are free. Numbers are told apart only as far as they are
counts: anything with a sign, a fraction or an exponent is a decimal.
-/
namespace ChestMachine
namespace Json

inductive Token where
  | openObject
  | closeObject
  | openArray
  | closeArray
  | colon
  | comma
  | null
  | bool (value : Bool)
  | natural (n : Nat)
  | decimal
  /-- A string has no value when it spells half of a surrogate pair. -/
  | text (value : Option String)
  deriving DecidableEq, Repr

def hexDigit (n : Nat) : Char :=
  Nat.digitChar (n % 16)

/-- Quotes, backslashes and control characters are escaped. -/
def quoteChar (c : Char) : List Char :=
  if c = '"' then ['\\', '"']
  else if c = '\\' then ['\\', '\\']
  else if c = '\n' then ['\\', 'n']
  else if c = '\r' then ['\\', 'r']
  else if c = '\t' then ['\\', 't']
  else if c = '\x08' then ['\\', 'b']
  else if c = '\x0c' then ['\\', 'f']
  else if c.toNat < 0x20 then ['\\', 'u', '0', '0', hexDigit (c.toNat / 16), hexDigit c.toNat]
  else [c]

def quote (s : String) : String :=
  "\"" ++ String.ofList (s.toList.flatMap quoteChar) ++ "\""

/-- One way to write the token; of a token without a value, any. -/
def Token.spelling : Token → String
  | .openObject => "\x7b"
  | .closeObject => "\x7d"
  | .openArray => "["
  | .closeArray => "]"
  | .colon => ":"
  | .comma => ","
  | .null => "null"
  | .bool true => "true"
  | .bool false => "false"
  | .natural n => toString n
  | .decimal => "0.0"
  | .text (some s) => quote s
  | .text none => "\"\\ud800\""

def isBlank (c : Char) : Bool :=
  c == ' ' || c == '\t' || c == '\n' || c == '\r'

/-- Whether there was a fraction, and what comes after it. -/
def skipFraction : List Char → Option (Bool × List Char)
  | '.' :: rest =>
      if (rest.takeWhile Char.isDigit).isEmpty then none
      else some (true, rest.dropWhile Char.isDigit)
  | cs => some (false, cs)

def skipSign : List Char → List Char
  | '+' :: rest | '-' :: rest => rest
  | cs => cs

/-- Whether there was an exponent, and what comes after it. -/
def skipExponent : List Char → Option (Bool × List Char)
  | 'e' :: rest | 'E' :: rest =>
      let digits := skipSign rest
      if (digits.takeWhile Char.isDigit).isEmpty then none
      else some (true, digits.dropWhile Char.isDigit)
  | cs => some (false, cs)

/-- A number without a sign. Only zero itself starts with a zero. -/
def unsigned? (cs : List Char) : Option (Token × List Char) := do
  let digits := cs.takeWhile Char.isDigit
  if digits.isEmpty || (digits.head? == some '0' && digits.length > 1) then none
  let (hasFraction, rest) ← skipFraction (cs.dropWhile Char.isDigit)
  let (hasExponent, rest) ← skipExponent rest
  let token := if hasFraction || hasExponent then .decimal
    else .natural (Nat.ofDigitChars 10 digits 0)
  return (token, rest)

def hexValue? (c : Char) : Option Nat :=
  if '0' ≤ c ∧ c ≤ '9' then some (c.toNat - '0'.toNat)
  else if 'a' ≤ c ∧ c ≤ 'f' then some (c.toNat - 'a'.toNat + 10)
  else if 'A' ≤ c ∧ c ≤ 'F' then some (c.toNat - 'A'.toNat + 10)
  else none

/-- The code that a letter after a backslash stands for. -/
def escaped? (c : Char) : Option Nat :=
  if c = '"' ∨ c = '\\' ∨ c = '/' then some c.toNat
  else if c = 'b' then some 0x08
  else if c = 'f' then some 0x0c
  else if c = 'n' then some 0x0a
  else if c = 'r' then some 0x0d
  else if c = 't' then some 0x09
  else none

/-- The codes that a string spells, up to its closing quote. -/
def codes? : List Char → Option (List Nat × List Char)
  | [] => none
  | '"' :: rest => some ([], rest)
  | '\\' :: 'u' :: a :: b :: c :: d :: rest => do
      let code := (((← hexValue? a) * 16 + (← hexValue? b)) * 16 + (← hexValue? c)) * 16
        + (← hexValue? d)
      let (codes, rest) ← codes? rest
      return (code :: codes, rest)
  | '\\' :: c :: rest => do
      let code ← escaped? c
      let (codes, rest) ← codes? rest
      return (code :: codes, rest)
  | c :: rest =>
      if c = '\\' ∨ c.toNat < 0x20 then none
      else do
        let (codes, rest) ← codes? rest
        return (c.toNat :: codes, rest)

def isHighSurrogate (code : Nat) : Bool :=
  0xd800 ≤ code && code < 0xdc00

def isLowSurrogate (code : Nat) : Bool :=
  0xdc00 ≤ code && code < 0xe000

/-- Joins surrogate pairs; a half without its partner spells nothing. -/
def chars? : List Nat → Option (List Char)
  | [] => some []
  | high :: codes =>
      if isLowSurrogate high then none
      else if isHighSurrogate high then
        match codes with
        | [] => none
        | low :: rest =>
            if isLowSurrogate low then
              (chars? rest).map
                (Char.ofNat (0x10000 + (high - 0xd800) * 0x400 + (low - 0xdc00)) :: ·)
            else none
      else (chars? codes).map (Char.ofNat high :: ·)

/-- The token at the very beginning, and what comes after it. -/
def Token.read? : List Char → Option (Token × List Char)
  | '\x7b' :: rest => some (.openObject, rest)
  | '\x7d' :: rest => some (.closeObject, rest)
  | '[' :: rest => some (.openArray, rest)
  | ']' :: rest => some (.closeArray, rest)
  | ':' :: rest => some (.colon, rest)
  | ',' :: rest => some (.comma, rest)
  | 'n' :: 'u' :: 'l' :: 'l' :: rest => some (.null, rest)
  | 't' :: 'r' :: 'u' :: 'e' :: rest => some (.bool true, rest)
  | 'f' :: 'a' :: 'l' :: 's' :: 'e' :: rest => some (.bool false, rest)
  | '"' :: rest => (codes? rest).map fun (codes, rest) =>
      (.text ((chars? codes).map String.ofList), rest)
  | '-' :: rest => (unsigned? rest).map fun (_, rest) => (.decimal, rest)
  | cs => unsigned? cs

theorem length_dropWhile_le (p : Char → Bool) (cs : List Char) :
    (cs.dropWhile p).length ≤ cs.length :=
  (List.dropWhile_sublist p).length_le

theorem length_skipFraction {cs rest : List Char} {b : Bool}
    (h : skipFraction cs = some (b, rest)) : rest.length ≤ cs.length := by
  unfold skipFraction at h
  split at h
  · rename_i digits
    have := length_dropWhile_le Char.isDigit digits
    grind
  · grind

theorem length_skipSign (cs : List Char) : (skipSign cs).length ≤ cs.length := by
  unfold skipSign
  split <;> simp

theorem length_skipExponent {cs rest : List Char} {b : Bool}
    (h : skipExponent cs = some (b, rest)) : rest.length ≤ cs.length := by
  unfold skipExponent at h
  split at h
  · rename_i tail
    have := length_skipSign tail
    have := length_dropWhile_le Char.isDigit (skipSign tail)
    grind
  · rename_i tail
    have := length_skipSign tail
    have := length_dropWhile_le Char.isDigit (skipSign tail)
    grind
  · grind

theorem length_unsigned? {cs rest : List Char} {token : Token}
    (h : unsigned? cs = some (token, rest)) : rest.length < cs.length := by
  have hd : (cs.takeWhile Char.isDigit).length + (cs.dropWhile Char.isDigit).length =
      cs.length := by
    rw [← List.length_append, List.takeWhile_append_dropWhile]
  simp only [unsigned?] at h
  split at h
  · simp at h
  · rename_i hne
    cases hf : skipFraction (cs.dropWhile Char.isDigit) with
    | none => simp [hf] at h
    | some r =>
        obtain ⟨fraction, r⟩ := r
        cases he : skipExponent r with
        | none => simp [hf, he] at h
        | some q =>
            obtain ⟨exponent, q⟩ := q
            have h1 := length_skipFraction hf
            have h2 := length_skipExponent he
            have h3 : (cs.takeWhile Char.isDigit).length ≠ 0 := by
              intro h0
              simp [List.length_eq_zero_iff.1 h0] at hne
            simp [hf, he] at h
            rw [← h.2]
            omega

theorem length_codes? {cs rest : List Char} {codes : List Nat}
    (h : codes? cs = some (codes, rest)) : rest.length ≤ cs.length := by
  fun_induction codes? cs generalizing codes rest with
  | case1 => simp at h
  | case2 tail => simp_all
  | case3 a b c d tail ih =>
      simp only [Option.bind_eq_bind, Option.bind_eq_some_iff, Prod.exists] at h
      grind
  | case4 c tail _ ih =>
      simp only [Option.bind_eq_bind, Option.bind_eq_some_iff, Prod.exists] at h
      grind
  | case5 c tail _ _ _ hc => simp at h
  | case6 c tail _ _ _ hc ih =>
      simp only [Option.bind_eq_bind, Option.bind_eq_some_iff, Prod.exists] at h
      grind

theorem length_read? {cs rest : List Char} {token : Token}
    (h : Token.read? cs = some (token, rest)) : rest.length < cs.length := by
  unfold Token.read? at h
  split at h
  case h_10 tail =>
    obtain ⟨⟨codes, r⟩, hr, h'⟩ := Option.map_eq_some_iff.1 h
    have := length_codes? hr
    grind
  case h_11 tail =>
    obtain ⟨⟨t, r⟩, hr, h'⟩ := Option.map_eq_some_iff.1 h
    have := length_unsigned? hr
    grind
  case h_12 => exact length_unsigned? h
  all_goals
    simp only [Option.some.injEq, Prod.mk.injEq] at h
    simp only [← h.2, List.length_cons]
    omega

/-- All tokens of a text. -/
def scan (cs : List Char) : Option (List Token) :=
  if (cs.dropWhile isBlank).isEmpty then some []
  else
    match _h : Token.read? (cs.dropWhile isBlank) with
    | none => none
    | some (token, rest) => (scan rest).map (token :: ·)
termination_by cs.length
decreasing_by
  have h1 := length_read? _h
  have h2 := length_dropWhile_le isBlank cs
  omega

end Json
end ChestMachine
