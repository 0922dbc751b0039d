import StoryMarkup.Proofs.Script.Constants

/-! The macros that a script calls, on a list beside it with the machine of each call. -/
namespace StoryMarkup.Script

variable {ω ε α : Type}

structure Call (ω : Type) where
  id : Nat
  name : String
  args : List Value
  machine : Machine ω

abbrev Noting (ω : Type) := ω × List (Call ω)

namespace Machine

def bare (m : Machine (Noting ω)) : Machine ω := { m with host := m.host.1 }

def calls (m : Machine (Noting ω)) : List (Call ω) := m.host.2

def withCalls (m : Machine ω) (calls : List (Call ω)) : Machine (Noting ω) := { m with host := (m.host, calls) }

end Machine

def Invoker.noting (invoke : Invoker ω) : Invoker (Noting ω) := fun id name args m =>
  let calls := m.calls ++ [⟨id, name, args, m.bare⟩]
  match invoke id name args m.bare with
  | .ok v m' => .ok v (m'.withCalls calls)
  | .error e m' => .error e (m'.withCalls calls)

def callsOf (x : EStateM ε (Machine (Noting ω)) α) (m : Machine ω) : List (Call ω) :=
  (ending (x (m.withCalls []))).calls

/-- What is said about the size of a heap, about the surroundings and about the calls made so far,
and stays true as the heap grows. -/
structure CallInvariant (ω : Type) where
  holds : Nat → ω → List (Call ω) → Prop
  grow : ∀ {size size' host calls}, size ≤ size' → holds size host calls → holds size' host calls

namespace CallInvariant

def bond (I : CallInvariant ω) (env : Env) : Bond ω (Noting ω) where
  toTerms := .same env False
  rel := fun _ m m' => m = m'.bare ∧ I.holds m.heap.objects.size m.host m'.calls
  heap_eq := fun ⟨h, _⟩ => by rw [h]; rfl
  random_eq := fun ⟨h, _⟩ => by rw [h]; rfl
  captured_eq := fun ⟨h, _⟩ => by rw [h]; rfl
  set_heap := by
    rintro n m m' h ⟨rfl, hI⟩ hgrows
    exact ⟨rfl, I.grow hgrows.size_le hI⟩
  set_random := fun _ ⟨h, hI⟩ => ⟨by rw [h]; rfl, hI⟩
  add_warning := fun _ _ ⟨h, hI⟩ => ⟨by rw [h]; rfl, hI⟩
  assign_local := fun _ _ ⟨h, hI⟩ => ⟨by rw [h]; rfl, hI⟩
  push_frame := fun _ ⟨h, hI⟩ => ⟨by rw [h]; rfl, hI⟩
  pop_frame := fun ⟨h, hI⟩ => ⟨by rw [h]; rfl, hI⟩

def KeptBy (I : CallInvariant ω) (invoke : Invoker ω) : Prop :=
  ∀ id name args (m : Machine ω) calls, I.holds m.heap.objects.size m.host calls →
    let after := ending (invoke id name args m)
    I.holds after.heap.objects.size after.host (calls ++ [⟨id, name, args, m⟩])

variable {I : CallInvariant ω} {env : Env} {n : Nat}

lemma lockstep_noting {invoke : Invoker ω} (h : I.KeptBy invoke) (n id : Nat) (name : String) (args : List Value) :
    (I.bond env).Lockstep n (invoke id name args) (invoke.noting id name args) := by
  refine .rigid ?_
  rintro m m' ⟨rfl, hI⟩
  have hafter := h id name args m'.bare m'.calls hI
  unfold Invoker.noting
  generalize invoke id name args m'.bare = r at hafter
  cases r with
  | ok v m => exact .ok v ⟨rfl, hafter⟩
  | error e m => exact .error e ⟨rfl, hafter⟩

lemma lockstep_callBuiltin (n : Nat) (b : Builtin) (args : List Value) :
    (I.bond env).Lockstep n (ScriptM.callBuiltin b args) (ScriptM.callBuiltin b args) :=
  (I.bond env).callBuiltin b args fun _ _ _ hm => hm.1

lemma holds_ending {x : EStateM ε (Machine ω) α} {y : EStateM ε (Machine (Noting ω)) α}
    (h : StoryMarkup.Lockstep never ((I.bond env).rel n) x y) {m : Machine ω}
    (hI : I.holds m.heap.objects.size m.host []) :
    I.holds (ending (x m)).heap.objects.size (ending (x m)).host (callsOf y m) := by
  exact (h m (m.withCalls []) ⟨rfl, hI⟩).ends.2

end CallInvariant
end StoryMarkup.Script
