import StoryMarkup.Proofs.Script.Bond

/-! Writing to the constants, with a log of the fields assigned to them by way of the library. -/
namespace StoryMarkup.Script

open ScriptM

variable {ω ε α : Type}

/-- What the surroundings keep, and the fields assigned to the constants so far. -/
abbrev Logged (ω : Type) := ω × List (String × Value)

namespace Machine

def forget (m : Machine (Logged ω)) : Machine ω := { m with host := m.host.1 }

def log (m : Machine (Logged ω)) : List (String × Value) := m.host.2

def withLog (m : Machine ω) (log : List (String × Value)) : Machine (Logged ω) := { m with host := (m.host, log) }

end Machine

def forgetLog : EStateM.Result ε (Machine (Logged ω)) α → EStateM.Result ε (Machine ω) α
  | .ok a m => .ok a m.forget
  | .error e m => .error e m.forget

def besideLog (x : EStateM ε (Machine ω) α) : EStateM ε (Machine (Logged ω)) α := fun m =>
  match x m.forget with
  | .ok a m' => .ok a (m'.withLog m.log)
  | .error e m' => .error e (m'.withLog m.log)

def assignLogged (constants : Nat) (sources : List Value) : ScriptM (Logged ω) Value := do
  sources.forM fun v => do
    let fields := fieldsOf (← heap) v
    modify fun m => { m with heap := m.heap.modifyObject constants fun o => o.insertAll fields
                             host := (m.host.1, m.host.2 ++ fields) }
  return .object constants

def loggingLibrary (constants : Nat) : Library (Logged ω)
  | .assign, .object ref :: sources =>
    if ref = constants then assignLogged constants sources else callBuiltin .assign (.object ref :: sources)
  | b, args => callBuiltin b args

def Invoker.Spares (invoke : Invoker ω) (ref : Nat) : Prop :=
  ∀ id name args (m : Machine ω), m.heap.Keeps (· = ref) (ending (invoke id name args m)).heap

lemma spares_noInvoker (ref : Nat) : Invoker.Spares (noInvoker (ω := ω)) ref := fun _ _ _ _ => Heap.Keeps.refl _

def logBond (ω : Type) (env : Env) (start : Bindings Value) : Bond ω (Logged ω) where
  toTerms := .same env True
  rel := fun _ m m' => m = m'.forget ∧ env.constants < m.heap.objects.size ∧
    m.heap.object env.constants = start.insertAll m'.log
  heap_eq := fun ⟨h, _⟩ => by rw [h]; rfl
  random_eq := fun ⟨h, _⟩ => by rw [h]; rfl
  captured_eq := fun ⟨h, _⟩ => by rw [h]; rfl
  set_heap := by
    rintro n m m' h ⟨rfl, hlt, hlog⟩ ⟨hkeeps, -⟩
    obtain ⟨hlt', hsame⟩ := hkeeps _ ⟨trivial, rfl⟩ hlt
    exact ⟨rfl, hlt', hsame.trans hlog⟩
  set_random := fun _ ⟨h, hlog⟩ => ⟨by rw [h]; rfl, hlog⟩
  add_warning := fun _ _ ⟨h, hlog⟩ => ⟨by rw [h]; rfl, hlog⟩
  assign_local := fun _ _ ⟨h, hlog⟩ => ⟨by rw [h]; rfl, hlog⟩
  push_frame := fun _ ⟨h, hlog⟩ => ⟨by rw [h]; rfl, hlog⟩
  pop_frame := fun ⟨h, hlog⟩ => ⟨by rw [h]; rfl, hlog⟩

section Steps

variable {env : Env} {start : Bindings Value} {n : Nat}

lemma Heap.object_modifyObject (h : Heap) {ref : Nat} (f : Bindings Value → Bindings Value)
    (hlt : ref < h.objects.size) : (h.modifyObject ref f).object ref = f (h.object ref) := by
  simp [Heap.object, Heap.modifyObject, hlt, Array.getElem_modify_self]

lemma lockstep_assignLogged (sources : List Value) :
    (logBond ω env start).Lockstep n (assignFields (.object env.constants :: sources))
      (assignLogged env.constants sources) := by
  refine .bind (.forM sources fun v => .rigid ?_) fun _ => .pure _
  rintro m m' ⟨rfl, hlt, hlog⟩
  refine .ok () ⟨rfl, ?_, ?_⟩
  · simpa [Heap.modifyObject] using hlt
  · change (Heap.modifyObject _ _ _).object _ = start.insertAll (m'.log ++ _)
    rw [Heap.object_modifyObject _ _ hlt, hlog, Bindings.insertAll_append]
    rfl

lemma lockstep_loggingLibrary (b : Builtin) (args : List Value) :
    (logBond ω env start).Lockstep n (callBuiltin b args) (loggingLibrary env.constants b args) := by
  unfold loggingLibrary
  split
  · rename_i ref sources
    split
    · rename_i he
      rw [he]
      exact lockstep_assignLogged sources
    · rename_i hne
      refine (logBond ω env start).callBuiltin _ _ fun _ ref' href' => ?_
      cases href'
      exact fun hmarked => hne hmarked.2
  · rename_i hother
    refine (logBond ω env start).callBuiltin b args fun hb ref href => ?_
    obtain ⟨sources, rfl⟩ : ∃ sources, args = .object ref :: sources := List.head?_eq_some_iff.1 href
    exact absurd rfl (hother ref sources hb)

lemma lockstep_besideLog {invoke : Invoker ω} (h : invoke.Spares env.constants) (id : Nat) (name : String)
    (args : List Value) : (logBond ω env start).Lockstep n (invoke id name args) (besideLog (invoke id name args)) := by
  refine .rigid ?_
  rintro m m' ⟨rfl, hlt, hlog⟩
  obtain ⟨hlt', hsame⟩ := h id name args m'.forget _ rfl hlt
  unfold besideLog
  generalize invoke id name args m'.forget = r at hlt' hsame
  cases r with
  | ok v m => exact .ok v ⟨rfl, hlt', hsame.trans hlog⟩
  | error e m => exact .error e ⟨rfl, hlt', hsame.trans hlog⟩

lemma accounted_of_matched {x : EStateM.Result ε (Machine ω) α} {y : EStateM.Result ε (Machine (Logged ω)) α}
    (h : Matched False ((logBond ω env start).rel n) x y) :
    x = forgetLog y ∧ (ending x).heap.object env.constants = start.insertAll (ending y).log := by
  refine ⟨?_, h.ends.2.2⟩
  exact h.rigid (fun _ hR => by rw [hR.1]; rfl) fun _ hR => by rw [hR.1]; rfl

end Steps

/-- Constants are written by `Object.assign` alone. With a log of what it assigns to them an
evaluation comes to the same, and the constants it ends with are those it began with and the fields
in the log. So they are as before exactly if every field in the log reads as before. -/
theorem constants_written_by_assign_only (env : Env) {invoke : Invoker ω} (hinvoke : invoke.Spares env.constants)
    (e : Expr) (m : Machine ω) (hconstants : env.constants < m.heap.objects.size) :
    let logged := evalUsing env (loggingLibrary env.constants) (fun id name args =>
      besideLog (invoke id name args)) e (m.withLog [])
    let before := m.heap.object env.constants
    let after := (ending (eval env invoke e m)).heap.object env.constants
    eval env invoke e m = forgetLog logged ∧ after = before.insertAll (ending logged).log ∧
      (after = before ↔ ∀ name ∈ (ending logged).log.map (·.1), after.get? name = before.get? name) := by
  intro logged before after
  have hm : Matched False ((logBond ω env before).rel 0) (eval env invoke e m) logged :=
    (logBond ω env before).evalUsing (fun _ => lockstep_loggingLibrary)
      (fun _ => lockstep_besideLog hinvoke) e m (m.withLog []) ⟨rfl, hconstants, rfl⟩
  obtain ⟨hsame, hafter⟩ := accounted_of_matched hm
  have hiff := Bindings.insertAll_eq_self_iff before (ending logged).log
  rw [← hafter] at hiff
  exact ⟨hsame, hafter, hiff⟩

/-- A field that is assigned to the constants is logged. -/
theorem assign_to_constants_logged : let env : Env := { story := 0, temp := 1, constants := 2 }
    let m : Machine Unit := { heap := { objects := #[.empty, .empty, .ofList [("max", .text "three")]] }, host := () }
    let e := (Expr.parse "Object.assign(constants, \x7bmax: \"four\"\x7d)".toList).toOption.getD default
    let logged := evalUsing env (loggingLibrary 2) (fun id name args =>
      besideLog (noInvoker id name args)) e (m.withLog [])
    Invoker.Spares (ω := Unit) noInvoker 2 ∧ 2 < m.heap.objects.size ∧
      ((ending logged).log.map fun (name, v) => (name, m.heap.display v)) = [("max", "four")] ∧
      (ending (eval env noInvoker e m)).heap.object 2 = (m.heap.object 2).insertAll (ending logged).log := by
  intro env m e logged
  have hlog : ((ending logged).log.map fun (name, v) => (name, m.heap.display v)) =
    [("max", "four")] := by decide +kernel
  have hwritten := constants_written_by_assign_only env (spares_noInvoker 2) e m (by decide)
  exact ⟨spares_noInvoker 2, by decide, hlog, hwritten.2.1⟩

/-- The constants are not read-only: an assignment by way of the library changes one. -/
theorem constant_overwritten_by_assign : let env : Env := { story := 0, temp := 1, constants := 2 }
    let m : Machine Unit := { heap := { objects := #[.empty, .empty, .ofList [("max", .text "three")]] }, host := () }
    let shown (m : Machine Unit) := m.heap.display (((m.heap.object 2).get? "max").getD .undefined)
    let m' := ending (evalSource env noInvoker "Object.assign(constants, \x7bmax: \"four\"\x7d)" m)
    shown m = "three" ∧ shown m' = "four" := by
  decide +kernel

end StoryMarkup.Script
