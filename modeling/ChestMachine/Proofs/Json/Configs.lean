import ChestMachine.Config.Json
import ChestMachine.Proofs.Json.Values

/-!
Configurations survive their text. Main statement: configurations, restore orders, chunk policies
and programs are read back from the text that they are written as, and a configuration from any
text that holds its three fields, whatever their order and whatever the gaps.
-/
namespace ChestMachine

open Json

namespace Json.Value

variable {fields fields' : List (Option String × Value)}

/-- Fields are found by their keys, not by their places. -/
theorem field?_perm (h : fields.Perm fields') (key : String) :
    field? fields key = field? fields' key := by
  have hfound := h.filter (·.1 == some key)
  unfold field?
  generalize fields.filter (·.1 == some key) = found at hfound
  generalize fields'.filter (·.1 == some key) = found' at hfound
  match found, found' with
  | [], _ => rw [hfound.nil_eq]
  | [field], _ => rw [List.singleton_perm.1 hfound]
  | _ :: _ :: _, [] | _ :: _ :: _, [_] => cases hfound.length_eq
  | _ :: _ :: _, _ :: _ :: _ => rfl

theorem word?_natural (n : UInt64) : (natural n.toNat).word? = some n := by
  rw [word?, if_pos n.toNat_lt_size]
  exact congrArg some n.ofNat_toNat

end Json.Value

theorem RestoreOrder.ofJson?_toJson (order : RestoreOrder) : ofJson? order.toJson = some order :=
  ofName?_name order

theorem Program.ofJson?_toJson (program : Program) : ofJson? program.toJson = some program :=
  ofName?_name program

theorem ChunkPolicy.ofJson?_toJson (policy : ChunkPolicy) :
    ofJson? policy.toJson = some policy := by
  cases policy with
  | runLength => rfl
  | fixed size =>
      have hread : ofJson? (fixed size).toJson = (Value.natural size.toNat).word?.map fixed := rfl
      rw [hread, Value.word?_natural, Option.map_some]

namespace Config

/-- The named fields of the object that the configuration is written as. -/
def fields (config : Config) : List (String × Value) :=
  [("restore_order", config.restoreOrder.toJson), ("chunking", config.chunking.toJson),
    ("max_iterations", .natural config.maxIterations.toNat)]

theorem ofJson?_toJson (config : Config) : ofJson? config.toJson = some config := by
  have hread : ofJson? config.toJson =
      ofValues? config.restoreOrder.toJson config.chunking.toJson
        (.natural config.maxIterations.toNat) := rfl
  rw [hread, ofValues?, RestoreOrder.ofJson?_toJson, ChunkPolicy.ofJson?_toJson,
    Value.word?_natural]
  rfl

theorem ofJson?_perm {fields fields' : List (Option String × Value)} (h : fields.Perm fields') :
    ofJson? (.object fields) = ofJson? (.object fields') := by
  simp only [ofJson?, h.all_eq, Value.field?_perm h]

theorem ofJson?_of_perm {config : Config} {fields : List (String × Value)}
    (h : fields.Perm config.fields) : ofJson? (.record fields) = some config :=
  (ofJson?_perm (h.map _)).trans config.ofJson?_toJson

/-- What is written is read back, and of a configuration so is any text that holds its fields. -/
theorem reads_back :
    (∀ config : Config,
      (Value.ofString? config.toJson.compact).bind ofJson? = some config ∧
      ∀ fields gap, fields.Perm config.fields →
        (Value.ofString? (String.ofList (spread gap (Value.record fields).tokens))).bind ofJson? =
          some config) ∧
    (∀ order : RestoreOrder,
      (Value.ofString? order.toJson.compact).bind RestoreOrder.ofJson? = some order) ∧
    (∀ policy : ChunkPolicy,
      (Value.ofString? policy.toJson.compact).bind ChunkPolicy.ofJson? = some policy) ∧
    (∀ program : Program,
      (Value.ofString? program.toJson.compact).bind Program.ofJson? = some program) := by
  refine ⟨fun config => ⟨?_, fun fields gap hfields => ?_⟩, fun order => ?_, fun policy => ?_,
    fun program => ?_⟩
  · rw [Value.ofString?_compact]
    exact config.ofJson?_toJson
  · rw [Value.ofString?_spread]
    exact ofJson?_of_perm hfields
  · rw [Value.ofString?_compact]
    exact order.ofJson?_toJson
  · rw [Value.ofString?_compact]
    exact policy.ofJson?_toJson
  · rw [Value.ofString?_compact]
    exact program.ofJson?_toJson

namespace Utmost

/-- Groups of the largest size, for as many dispatches as there can be. -/
def utmost : Config :=
  ⟨.resultsThenBox, .fixed 18446744073709551615, 18446744073709551615⟩

/-- Its fields in another order. -/
def shuffled : List (String × Value) :=
  [("max_iterations", .natural 18446744073709551615), ("restore_order", .string "results-then-box"),
    ("chunking", .record [("fixed", .natural 18446744073709551615)])]

/-- Its text with a blank around every token. -/
def spaced : String :=
  " \x7b \"max_iterations\" : 18446744073709551615 , \"restore_order\" : \"results-then-box\" ," ++
    " \"chunking\" : \x7b \"fixed\" : 18446744073709551615 \x7d \x7d "

theorem spaced_reads_back :
    shuffled.Perm utmost.fields ∧ (Value.ofString? spaced).bind ofJson? = some utmost := by
  have hfields : shuffled.Perm utmost.fields := (List.perm_append_singleton _ _).symm
  have htext : String.ofList (spread (fun _ => ⟨[' '], rfl⟩) (Value.record shuffled).tokens) =
      spaced := by
    decide +kernel
  have hread := (reads_back.1 utmost).2 shuffled (fun _ => ⟨[' '], rfl⟩) hfields
  rw [htext] at hread
  exact ⟨hfields, hread⟩

end Utmost
end Config
end ChestMachine
