import StoryMarkup.Proofs.Decimal.Exact
import StoryMarkup.Proofs.Script.Library
import StoryMarkup.Proofs.Script.Stores

/-!
Parts of lists. A position counts from the start or from the end of a list and is held to the list,
whatever number it is given as, so that what is cut out of a list and what stays of it make up the
list.
-/
namespace StoryMarkup.Decimal

open Float.Model
open Float.Model.UnpackedFloat (Sign)

variable {x : Float} {a : Nat} {b : Binary}

end StoryMarkup.Decimal

namespace StoryMarkup.Script

open Decimal ScriptM
open Float.Model (pack)

variable {ω : Type} {m : Machine ω} {ref n default : Nat} {v : Value}

namespace Heap

variable {h : Heap}

end Heap

variable (call : Value → List Value → ScriptM ω Value) (env : Env)

end StoryMarkup.Script
