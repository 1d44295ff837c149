import Callsite.Number.Decimal
import Callsite.Text.Quoted

/-!
# JSON values

Integers and numbers with a fraction or an exponent are kept apart. The members of an object keep
their order.
-/

namespace Callsite

inductive Json
  | null
  | bool (value : Bool)
  | int (value : Int)
  | float (value : Binary64)
  | text (value : Text)
  | array (items : List Json)
  | object (members : List (Text × Json))

namespace Json

/-- The name of the type of a value in messages. -/
def typeName : Json → String
  | .null => "NoneType"
  | .bool _ => "bool"
  | .int _ => "int"
  | .float _ => "float"
  | .text _ => "str"
  | .array _ => "list"
  | .object _ => "dict"

/-- Whether a value counts as given: neither null nor false, nor zero, nor empty. -/
def isTruthy : Json → Bool
  | .null => false
  | .bool value => value
  | .int value => value ≠ 0
  | .float value => value ≠ Binary64.ofFields 0 0 0 && value ≠ Binary64.ofFields 1 0 0
  | .text value => !value.isEmpty
  | .array items => !items.isEmpty
  | .object members => !members.isEmpty

mutual

/-- The form of a value in messages. -/
def literal : Json → Text
  | .null => "None"
  | .bool true => "True"
  | .bool false => "False"
  | .int value => Text.ofInt value
  | .float value => value.render
  | .text value => value.quoted
  | .array items => "[" ++ Text.join ", " (literalItems items) ++ "]"
  | .object members => "\x7b" ++ Text.join ", " (literalMembers members) ++ "\x7d"

def literalItems : List Json → List Text
  | [] => []
  | item :: rest => item.literal :: literalItems rest

def literalMembers : List (Text × Json) → List Text
  | [] => []
  | (key, value) :: rest => (key.quoted ++ ": " ++ value.literal) :: literalMembers rest

end

/-- A text shows as it is, all else as its literal. -/
def display : Json → Text
  | .text value => value
  | other => other.literal

/-- Adds a member at the end, or replaces the value of the one with its key. -/
def setMember (members : List (Text × Json)) (key : Text) (value : Json) : List (Text × Json) :=
  if members.any (·.1 = key) then
    members.map fun member => if member.1 = key then (key, value) else member
  else members ++ [(key, value)]

def member? (members : List (Text × Json)) (key : Text) : Option Json :=
  (members.find? (·.1 = key)).map Prod.snd

end Json

end Callsite
