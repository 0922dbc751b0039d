import StoryMarkup.Proofs.Script.Cells
import StoryMarkup.Proofs.Sorting.Permutations
import StoryMarkup.Script.Library.ListMethods

/-! Sorting a list in place. It is written once, after all comparisons, unless one of them fails. -/
namespace StoryMarkup

open List

namespace Sorting

variable {ε σ α β : Type} {less : α → α → EStateM ε σ Bool}

variable {step : σ → σ → Prop} {fails : ε → σ → σ → Prop} {stuck : σ → Prop}

end Sorting

namespace Script

open ScriptM

namespace Heap

variable (h : Heap) (items : List Value)

end Heap

variable {ω : Type} (call : Value → List Value → ScriptM ω Value)

section

variable {call} {env : Env} {ref f : Nat} {args items : List Value} {m : Machine ω}

end

end Script
end StoryMarkup
