import StoryMarkup.Proofs.Script.Evaluation

/-! Bonds: accords that ask nothing of the values. -/
namespace StoryMarkup.Script

open ScriptM

def Heap.Keeps (marked : Nat → Prop) (h h' : Heap) : Prop :=
  ∀ ref, marked ref → ref < h.objects.size → ref < h'.objects.size ∧ h'.object ref = h.object ref

structure Heap.Grows (marked : Nat → Prop) (h h' : Heap) : Prop where
  keeps : h.Keeps marked h'
  size_le : h.objects.size ≤ h'.objects.size

variable (h : Heap)

lemma Heap.Keeps.refl {marked : Nat → Prop} : h.Keeps marked h := fun _ _ hlt => ⟨hlt, rfl⟩

namespace Heap.Grows

variable {marked : Nat → Prop}

lemma of_objects_eq {h h' : Heap} (he : h'.objects = h.objects) : h.Grows marked h' :=
  ⟨fun ref _ hlt => by simp [Heap.object, he, hlt], Nat.le_of_eq (by rw [he])⟩

@[simp] lemma newObject (fields : Bindings Value) : h.Grows marked (h.newObject fields).2 := by
  refine ⟨fun ref _ hlt => ⟨by simp only [Heap.newObject, Array.size_push]; omega, ?_⟩, ?_⟩
  · simp [Heap.object, Heap.newObject, Array.getElem?_push, Nat.ne_of_lt hlt]
  · simp [Heap.newObject]

@[simp] lemma modifyArray (ref : Nat) (f : Array Value → Array Value) :
    h.Grows marked (h.modifyArray ref f) := of_objects_eq rfl

lemma modifyObject {ref : Nat} (f : Bindings Value → Bindings Value) (hr : ¬ marked ref) :
    h.Grows marked (h.modifyObject ref f) := by
  refine ⟨fun other hm hlt => ?_, by simp [Heap.modifyObject]⟩
  have hne : ref ≠ other := fun he => hr (he ▸ hm)
  refine ⟨by simpa [Heap.modifyObject] using hlt, ?_⟩
  simp [Heap.object, Heap.modifyObject, Array.getElem?_modify, hne]

lemma of_allocates {value : Value → Prop} {text : String → Prop} {fits : Expr → Prop} {h : Heap}
    {r : Value × Heap} (hr : Allocates value text fits h r) : h.Grows marked r.2 := by
  cases hr with
  | object => exact newObject _ _
  | _ => exact of_objects_eq rfl

end Heap.Grows

/-- How two evaluations are compared. The relation between their machines carries the number of
functions entered since the comparison began. -/
structure Bond (ω ω' : Type) extends Terms where
  rel : Nat → Machine ω → Machine ω' → Prop
  heap_eq : ∀ {n m m'}, rel n m m' → m'.heap = m.heap
  random_eq : ∀ {n m m'}, rel n m m' → m'.random = m.random
  captured_eq : ∀ {n m m'}, rel n m m' → captured m'.frames = captured m.frames
  set_heap : ∀ {n m m' h}, rel n m m' → m.heap.Grows marked h → rel n { m with heap := h } { m' with heap := h }
  set_random : ∀ {n m m'} x, rel n m m' → rel n { m with random := x } { m' with random := x }
  add_warning : ∀ {n m m'} s, left.strict = false → rel n m m' →
    rel n { m with warnings := m.warnings.push s } { m' with warnings := m'.warnings.push s }
  /-- A warning of the second evaluation where the first one fails is enough to let it off. -/
  lax_of_warned : right.strict ≠ left.strict → ∀ {n m m'}, rel n m m' → lax (m'.warnings.size + 1) := by
    exact fun h => absurd rfl h
  assign_local : ∀ {n m m'} name v, rel n m m' →
    rel n { m with frames := assignLocal name v m.frames } { m' with frames := assignLocal name v m'.frames }
  push_frame : ∀ {n m m'} f, rel n m m' →
    rel (n + 1) { m with frames := f :: m.frames } { m' with frames := f :: m'.frames }
  pop_frame : ∀ {n m m'}, rel (n + 1) m m' →
    rel n { m with frames := m.frames.tail } { m' with frames := m'.frames.tail }

namespace Bond

variable {ω ω' α : Type} (B : Bond ω ω') {n : Nat}

abbrev Lockstep {ε : Type} (n : Nat) (x : EStateM ε (Machine ω) α) (y : EStateM ε (Machine ω') α) : Prop :=
  StoryMarkup.Lockstep (fun m' => B.lax m'.warnings.size) (B.rel n) x y

def accord (B : Bond ω ω') : Accord ω ω' where
  toTerms := B.toTerms
  rel := B.rel
  kind := fun _ => Kind.any
  form := fun _ _ => True
  le := fun _ _ => True
  le_refl := fun _ => trivial
  le_trans := fun _ _ => trivial
  kind_mono := fun _ h => h
  heap_eq := B.heap_eq
  captured_eq := B.captured_eq
  all_heap := fun _ => Holding.of_forall fun _ => trivial
  all_frames := fun _ => Holding.of_forall fun _ => trivial
  all_scope := fun _ _ => trivial
  literal := fun _ _ _ => trivial
  closure := fun _ _ _ _ _ => trivial
  pattern := fun _ _ _ => ⟨trivial, trivial⟩
  make_cell := fun hr hmade => ⟨B.set_heap hr (.of_allocates hmade), trivial, trivial⟩
  free := fun _ => ⟨fun _ _ => trivial, fun _ _ => trivial, fun _ _ => trivial⟩
  add_warning := fun s hstrict hr => ⟨B.add_warning s hstrict hr, trivial⟩
  lax_of_warned := B.lax_of_warned

lemma runs : B.accord.Runs :=
  ⟨B.random_eq, fun x hr => ⟨B.set_random x hr, trivial⟩, fun name hr _ => ⟨B.assign_local name _ hr, trivial⟩,
    fun hr _ => ⟨B.push_frame _ hr, trivial⟩, fun hr => ⟨B.pop_frame hr, trivial⟩⟩

lemma writes : B.accord.Writes :=
  ⟨fun ref hr _ => ⟨B.set_heap hr (.modifyArray _ ref _), trivial⟩,
    fun hr href _ => ⟨B.set_heap hr (.modifyObject _ _ href), trivial⟩⟩

lemma anyText : B.accord.AnyText := fun _ _ => trivial

lemma all {β : Type} [Holding β] {w : Machine ω'} (b : β) : (B.accord.kind w).All b :=
  Holding.of_forall fun _ => trivial

lemma each (e : Expr) (inside : Bool) : B.accord.Allows inside e := ⟨fun _ _ _ => trivial, fun _ _ => trivial⟩

lemma lockstep {x : ScriptM ω α} {y : ScriptM ω' α} {Q : Machine ω' → α → Prop}
    (h : ∀ w, B.accord.AbreastTo n w Q x y) : B.Lockstep n x y := by
  refine ⟨fun m m' hr => ?_, fun m m' hlax => (h m').stray m m' hlax⟩
  have hm := (h m').agrees m m' hr trivial
  change Matched (B.accord.lax (ending (y m')).warnings.size) (B.rel n) (x m) (y m')
  generalize x m = r, y m' = r' at hm ⊢
  cases hm with
  | ok hr _ _ => exact .ok _ hr
  | error hr _ _ => exact .error _ hr
  | off hlax => exact .off hlax

lemma abreast [Holding α] {x : ScriptM ω α} {y : ScriptM ω' α} {w : Machine ω'}
    (h : B.Lockstep n x y) : B.accord.Abreast n w x y := by
  refine ⟨fun m m' hr _ => ?_, h.stray⟩
  have hm := h m m' hr
  change B.accord.Agrees n w _ (B.lax (ending (y m')).warnings.size) (x m) (y m')
  generalize x m = r, y m' = r' at hm ⊢
  cases hm with
  | ok a hr => exact .ok hr trivial (B.all a)
  | error e hr => exact .error hr trivial fun _ _ => trivial
  | off hlax => exact .off hlax

lemma heap : B.Lockstep n ScriptM.heap ScriptM.heap := B.lockstep fun _ => .heap

lemma refuse (p : TypeProblem) : B.Lockstep n (refuse p : ScriptM ω α) (refuse p) := .throw _

lemma lift (r : Except ScriptError α) : B.Lockstep n (lift r) (lift r) := by
  cases r with
  | ok a => exact .pure a
  | error e => exact .throw e

lemma iterate (v : Value) : B.Lockstep n (iterate v) (iterate v) := B.lockstep fun _ => .iterate v

lemma pairs (fields : List (String × Value)) : B.Lockstep n (pairs fields) (pairs fields) :=
  B.lockstep fun _ => .pairs (B.all fields) fun _ _ => trivial

lemma scopeValue (scope : Scope) (name : String) :
    B.Lockstep n (scopeValue B.left scope name) (scopeValue B.right scope name) :=
  B.lockstep fun _ => .scopeValue scope name

lemma getProperty (target key : Value) : B.Lockstep n (getProperty target key) (getProperty target key) :=
  B.lockstep fun _ => .getProperty target key

lemma callBuiltin (b : Builtin) (args : List Value)
    (h : b = .assign → ∀ ref, args.head? = some (.object ref) → ¬ B.marked ref) :
    B.Lockstep n (callBuiltin b args) (callBuiltin b args) :=
  B.lockstep fun _ => .callBuiltin B.runs (.inl B.anyText) fun hb => ⟨B.writes, B.all args, h hb⟩

section Machinery

variable {library : Library ω} {library' : Library ω'} {invoke : Invoker ω} {invoke' : Invoker ω'}
  (hlibrary : ∀ n b args, B.Lockstep n (library b args) (library' b args))
  (hinvoke : ∀ n id name args, B.Lockstep n (invoke id name args) (invoke' id name args))
  {depth depth' : Nat} (hdepth : depth' = depth ∨ (∀ n, B.lax n) ∧ depth ≤ depth')
include hlibrary hinvoke hdepth

lemma callUsing (f : Value) (args : List Value) :
    B.Lockstep n (callUsing B.left library invoke depth f args) (callUsing B.right library' invoke' depth' f args) :=
  B.lockstep fun _ => .callUsing (fun _ => B.abreast (hlibrary _ _ _))
    (fun _ => B.abreast (hinvoke _ _ _ _)) B.runs B.writes B.anyText hdepth (B.all args)

lemma calls (f : Value) (recv : Option Value) (args : List Value) :
    B.Lockstep n (callWith B.left (Script.callUsing B.left library invoke depth) f recv args)
      (callWith B.right (Script.callUsing B.right library' invoke' depth') f recv args) :=
  B.lockstep fun _ => .callWith (fun _ => B.abreast (B.callUsing hlibrary hinvoke hdepth _ _))
    B.writes B.anyText f (B.all recv) (B.all args)

lemma evalBody (e : Expr) :
    B.Lockstep n (evalWith B.left asIs (writePlace B.left)
      (callWith B.left (Script.callUsing B.left library invoke depth)) e)
      (evalWith B.right asIs (writePlace B.right)
        (callWith B.right (Script.callUsing B.right library' invoke' depth')) e) :=
  B.lockstep fun _ => .evalWith (.asIs B.anyText) (fun _ _ => .writePlace B.runs B.writes _)
    (fun _ _ _ _ _ _ _ _ => B.abreast (B.calls hlibrary hinvoke hdepth _ _ _)) e (B.each e true)

omit hdepth in
lemma evalUsing (e : Expr) :
    B.Lockstep n (evalUsing B.left library invoke e) (evalUsing B.right library' invoke' e) :=
  B.evalBody hlibrary hinvoke B.depth_eq e

end Machinery

lemma assign {invoke : Invoker ω} {invoke' : Invoker ω'}
    (hlibrary : ∀ n b args, B.Lockstep n (ScriptM.callBuiltin b args) (ScriptM.callBuiltin b args))
    (hinvoke : ∀ n id name args, B.Lockstep n (invoke id name args) (invoke' id name args))
      (target : Expr) (v : Value) :
    B.Lockstep n (assign B.left invoke target v) (assign B.right invoke' target v) :=
  B.lockstep fun _ => .bind (.evalPlace (.asIs B.anyText) (fun _ _ => .writePlace B.runs B.writes _)
    (fun _ _ _ _ _ _ _ _ => B.abreast (B.calls hlibrary hinvoke B.depth_eq _ _ _)) target
    (B.each target true)) fun _ place _ _ => .writePlace B.runs B.writes place (B.all v)

end Bond
end StoryMarkup.Script
