import StoryMarkup.Bindings
import StoryMarkup.Decimal.Binary

/-! JSON values. The fields of an object keep their order, and a number is an integer or a
double. -/
namespace StoryMarkup

namespace Json

inductive Number where
  | int (n : Int)
  | float (x : Float)
deriving Repr, Inhabited

def Number.toFloat : Number → Float
  | .int n => Decimal.ofInt n
  | .float x => x

end Json

inductive Json where
  | null
  | bool (b : Bool)
  | number (n : Json.Number)
  | string (s : String)
  | array (items : List Json)
  | object (fields : List (String × Json))
deriving Inhabited

namespace Json

def int (n : Int) : Json := .number (.int n)

def nat (n : Nat) : Json := .number (.int n)

def strings (ss : List String) : Json := .array (ss.map .string)

def field (j : Json) (name : String) : Json :=
  match j with
  | .object fields => (fields.lookup name).getD .null
  | _ => .null

def field? (j : Json) (name : String) : Option Json :=
  match j with
  | .object fields => fields.lookup name
  | _ => none

end Json
end StoryMarkup
