/-!
Faults: the ways in which an operation can give up. A fault names the
operation, and keeps the text of the item concerned rather than the item.
-/
namespace ChestMachine

/-- What an operand was wanted for. -/
inductive OperandSlot where
  | returnToken
  | argument (index : Nat)
  | continuationBox
  | continuationToken
  | key
  deriving DecidableEq, Repr

inductive Cause where
  | missingOperand (slot : OperandSlot)
  | notABox (slot : OperandSlot) (found : String)
  | keyNotFound (key : String)
  | unknownItem (item : String)
  | containerFull (item : String)
  deriving DecidableEq, Repr

structure Fault where
  operation : String
  cause : Cause
  deriving DecidableEq, Repr

inductive Category where
  | protocol
  | store
  | builtin
  | capacity
  deriving DecidableEq, Repr

def OperandSlot.text : OperandSlot → String
  | .returnToken => "return token"
  | .argument index => "argument " ++ toString index
  | .continuationBox => "continuation box"
  | .continuationToken => "continuation token"
  | .key => "key"

def Category.text : Category → String
  | .protocol => "protocol"
  | .store => "store"
  | .builtin => "builtin"
  | .capacity => "capacity"

namespace Cause

def category : Cause → Category
  | .missingOperand _ | .notABox _ _ => .protocol
  | .keyNotFound _ => .store
  | .unknownItem _ => .builtin
  | .containerFull _ => .capacity

/-- The first digit tells the category. -/
def code : Cause → Nat
  | .missingOperand _ => 1001
  | .notABox _ _ => 1002
  | .keyNotFound _ => 2001
  | .unknownItem _ => 3001
  | .containerFull _ => 4001

def text : Cause → String
  | .missingOperand slot => "missing operand: " ++ slot.text
  | .notABox slot found => "expected a box for " ++ slot.text ++ ", found " ++ found
  | .keyNotFound key => "key not found: " ++ key
  | .unknownItem item => "unknown item: " ++ item
  | .containerFull item => "container full: could not place " ++ item

end Cause

def Fault.message (fault : Fault) : String :=
  "[" ++ fault.operation ++ "] " ++ fault.cause.text

end ChestMachine
