import ChestMachine.Json.Value
import ChestMachine.Proofs.Json.Spelling

/-!
Reading values back. Main statement: the tokens of any value, spread over a text with any gaps
between them, are read as this value; so is the text without any.
-/
namespace ChestMachine
namespace Json
namespace Value

/-- What is left of an array behind an element. -/
def elementsAfter : List Value → List Token
  | [] => [.closeArray]
  | element :: rest => .comma :: (element.tokens ++ elementsAfter rest)

/-- What is left of an object behind a field. -/
def fieldsAfter : List (Option String × Value) → List Token
  | [] => [.closeObject]
  | (key, value) :: rest => .comma :: .text key :: .colon :: (value.tokens ++ fieldsAfter rest)

theorem elementTokens_cons (element : Value) (rest : List Value) :
    elementTokens (element :: rest) = element.tokens ++ elementsAfter rest := by
  induction rest generalizing element with
  | nil => rw [elementTokens, elementsAfter]
  | cons next rest ih => rw [elementTokens, ih, elementsAfter]

theorem fieldTokens_cons (key : Option String) (value : Value)
    (rest : List (Option String × Value)) :
    fieldTokens ((key, value) :: rest) =
      .text key :: .colon :: (value.tokens ++ fieldsAfter rest) := by
  induction rest generalizing key value with
  | nil => rw [fieldTokens, fieldsAfter, List.cons_append, List.cons_append]
  | cons next rest ih =>
      obtain ⟨key', value'⟩ := next
      rw [fieldTokens, ih, fieldsAfter, List.cons_append, List.cons_append]

/-- A value begins with a token of its own. -/
theorem tokens_head (value : Value) :
    ∃ token rest, value.tokens = token :: rest ∧ token ≠ .closeArray := by
  cases value <;> exact ⟨_, _, rfl, nofun⟩

theorem begin?_openArray {token : Token} (h : token ≠ .closeArray) (rest : List Token)
    (outer : List Unclosed) :
    begin? (.openArray :: token :: rest) outer = begin? (token :: rest) (.array [] :: outer) := by
  rw [begin?]
  intro _ heq
  exact h (List.cons.inj heq).1

mutual

/-- The tokens of a value are read as this value, and reading goes on behind them. -/
theorem begin?_tokens (value : Value) (rest : List Token) (outer : List Unclosed) :
    begin? (value.tokens ++ rest) outer = resume? rest value outer := by
  match value with
  | .null | .bool _ | .natural _ | .decimal | .text _ =>
      rw [tokens, List.singleton_append, begin?]
  | .array [] => rw [tokens, elementTokens, List.cons_append, List.singleton_append, begin?]
  | .array (element :: elements) =>
      -- The array is not taken for an empty one.
      obtain ⟨token, _, htokens, htoken⟩ := tokens_head element
      have hopen : begin? (.openArray :: (element.tokens ++ (elementsAfter elements ++ rest)))
          outer = begin? (element.tokens ++ (elementsAfter elements ++ rest))
            (.array [] :: outer) := by
        rw [htokens, List.cons_append, begin?_openArray htoken]
      rw [tokens, elementTokens_cons, List.cons_append, List.append_assoc, hopen,
        begin?_tokens element, resume?_elementsAfter elements, List.reverse_nil, List.nil_append]
  | .object [] => rw [tokens, fieldTokens, List.cons_append, List.singleton_append, begin?]
  | .object ((key, value) :: fields) =>
      rw [tokens, fieldTokens_cons, List.cons_append, List.cons_append, List.cons_append,
        List.append_assoc, begin?, begin?_tokens value, resume?_fieldsAfter fields,
        List.reverse_nil, List.nil_append]

theorem resume?_elementsAfter (elements before : List Value) (value : Value)
    (rest : List Token) (outer : List Unclosed) :
    resume? (elementsAfter elements ++ rest) value (.array before :: outer) =
      resume? rest (.array (before.reverse ++ value :: elements)) outer := by
  match elements with
  | [] => rw [elementsAfter, List.singleton_append, resume?, List.reverse_cons]
  | element :: elements =>
      rw [elementsAfter, List.cons_append, List.append_assoc, resume?, begin?_tokens element,
        resume?_elementsAfter elements, List.reverse_cons, List.append_assoc,
        List.singleton_append]

theorem resume?_fieldsAfter (fields before : List (Option String × Value)) (key : Option String)
    (value : Value) (rest : List Token) (outer : List Unclosed) :
    resume? (fieldsAfter fields ++ rest) value (.object before key :: outer) =
      resume? rest (.object (before.reverse ++ (key, value) :: fields)) outer := by
  match fields with
  | [] => rw [fieldsAfter, List.singleton_append, resume?, List.reverse_cons]
  | (key', value') :: fields =>
      rw [fieldsAfter, List.cons_append, List.cons_append, List.cons_append, List.append_assoc,
        resume?, begin?_tokens value', resume?_fieldsAfter fields, List.reverse_cons,
        List.append_assoc, List.singleton_append]

end

/-- Tokens that may stand behind any value. -/
def Follows (tokens : List Token) : Prop :=
  tokens.IsChain Apart ∧ ∀ next ∈ tokens.head?, next.isNumber = false

variable {token : Token} {tokens : List Token}

theorem apart_of_follows (token : Token) (h : Follows tokens) :
    (token :: tokens).IsChain Apart := by
  refine List.isChain_cons.2 ⟨fun next hnext hboth => ?_, h.1⟩
  exact Bool.false_ne_true ((h.2 next hnext).symm.trans hboth.2)

theorem apart_cons (h : token.isNumber = false) (htokens : tokens.IsChain Apart) :
    (token :: tokens).IsChain Apart := by
  refine List.isChain_cons.2 ⟨fun next _ hboth => ?_, htokens⟩
  exact Bool.false_ne_true (h.symm.trans hboth.1)

theorem follows_cons (h : token.isNumber = false) (htokens : tokens.IsChain Apart) :
    Follows (token :: tokens) := by
  refine ⟨apart_cons h htokens, fun next hnext => ?_⟩
  cases hnext
  exact h

mutual

/-- No two numbers are neighbours among the tokens of a value, nor at its end. -/
theorem apart_tokens (value : Value) {rest : List Token} (h : Follows rest) :
    (value.tokens ++ rest).IsChain Apart := by
  match value with
  | .null | .bool _ | .natural _ | .decimal | .text _ => exact apart_of_follows _ h
  | .array [] => exact apart_cons rfl (apart_of_follows _ h)
  | .array (element :: elements) =>
      rw [tokens, elementTokens_cons, List.cons_append, List.append_assoc]
      exact apart_cons rfl (apart_tokens element (follows_elementsAfter elements h))
  | .object [] => exact apart_cons rfl (apart_of_follows _ h)
  | .object ((key, value) :: fields) =>
      rw [tokens, fieldTokens_cons, List.cons_append, List.cons_append, List.cons_append,
        List.append_assoc]
      exact apart_cons rfl (apart_cons rfl (apart_cons rfl
        (apart_tokens value (follows_fieldsAfter fields h))))

theorem follows_elementsAfter (elements : List Value) {rest : List Token} (h : Follows rest) :
    Follows (elementsAfter elements ++ rest) := by
  match elements with
  | [] => exact follows_cons rfl h.1
  | element :: elements =>
      rw [elementsAfter, List.cons_append, List.append_assoc]
      exact follows_cons rfl (apart_tokens element (follows_elementsAfter elements h))

theorem follows_fieldsAfter (fields : List (Option String × Value)) {rest : List Token}
    (h : Follows rest) : Follows (fieldsAfter fields ++ rest) := by
  match fields with
  | [] => exact follows_cons rfl h.1
  | (key, value) :: fields =>
      rw [fieldsAfter, List.cons_append, List.cons_append, List.cons_append, List.append_assoc]
      exact follows_cons rfl (apart_cons rfl (apart_cons rfl
        (apart_tokens value (follows_fieldsAfter fields h))))

end

/-- A value is read from any text that spells its tokens. -/
theorem ofString?_spread (value : Value) (gap : Nat → Gap) :
    ofString? (String.ofList (spread gap value.tokens)) = some value := by
  have hend : Follows [] := ⟨List.isChain_nil, nofun⟩
  have hapart := apart_tokens value hend
  have hread := begin?_tokens value [] []
  rw [List.append_nil] at hapart hread
  rw [ofString?, String.toList_ofList, scan_spread hapart]
  exact hread.trans (by rw [resume?])

theorem compact_eq_spread (value : Value) :
    value.compact = String.ofList (spread (fun _ => .empty) value.tokens) := by
  rw [← String.toList_inj, String.toList_ofList, compact]
  induction value.tokens with
  | nil => rfl
  | cons token tokens ih =>
      rw [List.map_cons, String.join_cons, String.toList_append, ih, spread]
      rfl

theorem ofString?_compact (value : Value) : ofString? value.compact = some value := by
  rw [compact_eq_spread, ofString?_spread]

end Value
end Json
end ChestMachine
