import ChestMachine.Json.Token

/-!
JSON values, read from tokens and written as tokens. Reading keeps the arrays
and objects that are still open on a stack, so values may nest to any depth.
-/
namespace ChestMachine
namespace Json

/-- Fields keep their order and may repeat. A key may be a string without a
value, as any string may. -/
inductive Value where
  | null
  | bool (value : Bool)
  | natural (n : Nat)
  | decimal
  | text (value : Option String)
  | array (elements : List Value)
  | object (fields : List (Option String × Value))

/-- An array or object whose end has not been read. What was read of it is
listed backwards; an object is waiting for the value of a key. -/
inductive Unclosed where
  | array (elements : List Value)
  | object (fields : List (Option String × Value)) (key : Option String)

mutual

/-- Reads on where a value has to come next. -/
def Value.begin? : List Token → List Unclosed → Option Value
  | .null :: rest, outer => Value.resume? rest .null outer
  | .bool b :: rest, outer => Value.resume? rest (.bool b) outer
  | .natural n :: rest, outer => Value.resume? rest (.natural n) outer
  | .decimal :: rest, outer => Value.resume? rest .decimal outer
  | .text s :: rest, outer => Value.resume? rest (.text s) outer
  | .openArray :: .closeArray :: rest, outer => Value.resume? rest (.array []) outer
  | .openArray :: rest, outer => Value.begin? rest (.array [] :: outer)
  | .openObject :: .closeObject :: rest, outer => Value.resume? rest (.object []) outer
  | .openObject :: .text key :: .colon :: rest, outer =>
      Value.begin? rest (.object [] key :: outer)
  | _, _ => none

/-- Reads on behind a value that is complete. -/
def Value.resume? : List Token → Value → List Unclosed → Option Value
  | [], value, [] => some value
  | .comma :: rest, value, .array elements :: outer =>
      Value.begin? rest (.array (value :: elements) :: outer)
  | .closeArray :: rest, value, .array elements :: outer =>
      Value.resume? rest (.array (value :: elements).reverse) outer
  | .comma :: .text next :: .colon :: rest, value, .object fields key :: outer =>
      Value.begin? rest (.object ((key, value) :: fields) next :: outer)
  | .closeObject :: rest, value, .object fields key :: outer =>
      Value.resume? rest (.object ((key, value) :: fields).reverse) outer
  | _, _, _ => none

end

namespace Value

/-- A whole text that holds one value. -/
def ofString? (s : String) : Option Value := do
  begin? (← scan s.toList) []

mutual

def tokens : Value → List Token
  | .null => [.null]
  | .bool b => [.bool b]
  | .natural n => [.natural n]
  | .decimal => [.decimal]
  | .text s => [.text s]
  | .array elements => .openArray :: elementTokens elements
  | .object fields => .openObject :: fieldTokens fields

/-- The rest of an array from its first element on. -/
def elementTokens : List Value → List Token
  | [] => [.closeArray]
  | [element] => element.tokens ++ [.closeArray]
  | element :: next :: rest => element.tokens ++ .comma :: elementTokens (next :: rest)

/-- The rest of an object from its first key on. -/
def fieldTokens : List (Option String × Value) → List Token
  | [] => [.closeObject]
  | [(key, value)] => .text key :: .colon :: value.tokens ++ [.closeObject]
  | (key, value) :: next :: rest =>
      .text key :: .colon :: value.tokens ++ .comma :: fieldTokens (next :: rest)

end

/-- The text without any blanks. -/
def compact (value : Value) : String :=
  String.join (value.tokens.map Token.spelling)

def string (s : String) : Value :=
  .text (some s)

/-- An object whose keys are given as strings. -/
def record (fields : List (String × Value)) : Value :=
  .object (fields.map fun (key, value) => (some key, value))

end Value
end Json
end ChestMachine
