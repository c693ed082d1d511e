import ChestMachine.Stack

/-!
How items and inventories are written out. A label is shown when it differs
from the kind, a payload follows in angle brackets, and a count of one is left
out. In an inventory a run of vacant slots between two stacks shows as dots;
vacant slots at either end do not show.
-/
namespace ChestMachine

/-- What has been written before the next stack: nothing yet, a stack just
before it, or a stack and then vacant slots. -/
inductive Lead where
  | start
  | stack
  | gap

namespace Lead

def text : Lead → String
  | .start => ""
  | .stack => ","
  | .gap => ",...,"

def afterVacant : Lead → Lead
  | .start => .start
  | .stack | .gap => .gap

end Lead

mutual

def Item.text : Item → String
  | .mk kind label _ payload =>
      kind ++ (if kind = label then "" else ": \"" ++ label ++ "\"") ++ payload.suffix

def Payload.suffix : Payload → String
  | .nothing => ""
  | .tag text => " <" ++ text ++ ">"
  | .box contents => " <" ++ contents.text ++ ">"

def Inventory.text : Inventory → String
  | .mk slots => "[" ++ Stack.textAfter .start slots ++ "]"

def Stack.text : Stack → String
  | .fresh => "()"
  | .used item count =>
      if count = 0 then "()"
      else if count = 1 then "(" ++ item.text ++ ")"
      else "(" ++ item.text ++ ", " ++ toString count.toNat ++ ")"

def Stack.textAfter : Lead → List Stack → String
  | _, [] => ""
  | lead, s :: rest =>
      if s.isVacant then Stack.textAfter lead.afterVacant rest
      else lead.text ++ s.text ++ Stack.textAfter .stack rest

end

/-- The text of a payload by itself. -/
def Payload.text? : Payload → Option String
  | .nothing => none
  | .tag text => some text
  | .box contents => some contents.text

/-- The text with the count always shown. -/
def Stack.fullText (s : Stack) : String :=
  match s.held? with
  | none => "()"
  | some item => "(" ++ item.text ++ ", " ++ toString s.count.toNat ++ ")"

/-- The occupied slots, each with its index and count. -/
def Inventory.fullText (inventory : Inventory) : String :=
  let occupied := inventory.slots.zipIdx.filter (!·.1.isVacant)
  if occupied.isEmpty then
    "Inventory\x7b" ++ toString inventory.slots.length ++ " vacant\x7d"
  else
    let parts := occupied.map fun (s, index) => "[" ++ toString index ++ "]=" ++ s.fullText
    "Inventory\x7b" ++ ", ".intercalate parts ++ "\x7d"

end ChestMachine
