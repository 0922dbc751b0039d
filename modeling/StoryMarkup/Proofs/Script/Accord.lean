import StoryMarkup.Proofs.Lockstep
import StoryMarkup.Proofs.Script.Frames
import StoryMarkup.Proofs.Script.Parts

/-! Comparing two evaluations: how their machines go together, and what is known of their values. -/
namespace StoryMarkup.Script

open List ScriptM

/-! Kinds of values. -/

def Value.isAtom : Value → Bool
  | .text _ | .array _ | .object _ => false
  | _ => true

structure Kind where
  holds : Value → Prop
  atom : ∀ {v : Value}, v.isAtom = true → holds v
  short : ∀ {s : String}, s.length ≤ maxTextLength → holds (.text s)
  part : ∀ {s t : String}, t.length ≤ s.length → holds (.text s) → holds (.text t)

def Kind.any : Kind := ⟨fun _ => True, fun _ => trivial, fun _ => trivial, fun _ _ => trivial⟩

variable {v : Value} {b : Bindings Value} {items : Array Value}

class Holding (α : Type) where
  all : (Value → Prop) → α → Prop
  imp : ∀ {p q : Value → Prop} {a : α}, (∀ v, p v → q v) → all p a → all q a
  of_forall : ∀ {p : Value → Prop} {a : α}, (∀ v, p v) → all p a

class Plain (α : Type)

instance : Plain Unit := {}
instance : Plain Bool := {}
instance : Plain Nat := {}
instance : Plain Float := {}
instance : Plain String := {}
instance : Plain Scope := {}
instance : Plain Pattern := {}
instance : Plain Place := {}

section Holding

variable {α β : Type}

instance [Plain α] : Holding α := ⟨fun _ _ => True, fun _ => id, fun _ => trivial⟩

instance : Holding Value := ⟨fun p v => p v, fun h => h _, fun h => h _⟩

instance [Holding α] : Holding (List α) :=
  ⟨fun p l => ∀ a ∈ l, Holding.all p a, fun h hl a ha => Holding.imp h (hl a ha), fun h _ _ => Holding.of_forall h⟩

instance [Holding α] : Holding (Option α) :=
  ⟨fun p o => ∀ a ∈ o, Holding.all p a, fun h ho a ha => Holding.imp h (ho a ha), fun h _ _ => Holding.of_forall h⟩

instance [Holding α] [Holding β] : Holding (α × β) :=
  ⟨fun p c => Holding.all p c.1 ∧ Holding.all p c.2, fun h hc => ⟨Holding.imp h hc.1, Holding.imp h hc.2⟩,
    fun h => ⟨Holding.of_forall h, Holding.of_forall h⟩⟩

instance [Holding α] {q : α → Prop} : Holding { a // q a } :=
  ⟨fun p a => Holding.all p a.val, Holding.imp, Holding.of_forall⟩

instance : Holding (Bindings Value) := ⟨fun p b => Holding.all p b.values, Holding.imp, Holding.of_forall⟩

instance : Holding Heap where
  all p h := (∀ ref, Holding.all p (h.array ref).toList) ∧ (∀ ref, Holding.all p (h.object ref)) ∧
    ∀ ref params body captures, h.function? ref = some (.closure params body captures) → Holding.all p captures
  imp h hh := ⟨fun ref => Holding.imp h (hh.1 ref), fun ref => Holding.imp h (hh.2.1 ref),
    fun ref params body captures hf => Holding.imp h (hh.2.2 ref params body captures hf)⟩
  of_forall h := ⟨fun _ => Holding.of_forall h, fun _ => Holding.of_forall h, fun _ _ _ _ _ => Holding.of_forall h⟩

end Holding

namespace Kind

variable {α β γ : Type} [Holding α] [Holding β] {k : Kind} {h : Heap}
variable {l : List α} {args : List Value} {es : List (String × Value)} {frames : List (Bindings Value)}

def All (k : Kind) (a : α) : Prop := Holding.all k.holds a

@[simp] lemma all_plain [Plain γ] (a : γ) : k.All a := trivial

@[simp] lemma all_undefined : k.All Value.undefined := k.atom rfl
@[simp] lemma all_null : k.All Value.null := k.atom rfl
@[simp] lemma all_bool (b : Bool) : k.All (Value.bool b) := k.atom rfl
@[simp] lemma all_number (x : Float) : k.All (Value.number x) := k.atom rfl
@[simp] lemma all_function (ref : Nat) : k.All (Value.function ref) := k.atom rfl

@[simp] lemma all_none : k.All (none : Option α) := nofun

@[simp] lemma all_some {a : α} : k.All (some a) ↔ k.All a := by simp [All, Holding.all]

@[simp] lemma all_pair {p : α × β} : k.All p ↔ k.All p.1 ∧ k.All p.2 := .rfl

@[simp] lemma all_nil : k.All ([] : List α) := nofun

@[simp] lemma all_cons {a : α} : k.All (a :: l) ↔ k.All a ∧ k.All l := forall_mem_cons

@[simp] lemma all_plain_list [Plain γ] (l : List γ) : k.All l := fun _ _ => trivial

lemma all_plain_option [Plain γ] (o : Option γ) : k.All o := fun _ _ => trivial

@[simp] lemma all_append {l' : List α} : k.All (l ++ l') ↔ k.All l ∧ k.All l' := forall_mem_append

lemma all_of_subset {l' : List α} (hl : k.All l) (hsub : ∀ a ∈ l', a ∈ l) : k.All l' := fun a ha => hl a (hsub a ha)

lemma all_getD {o : Option Value} (ho : k.All o) : k.All (o.getD .undefined) := by
  cases o with
  | none => exact all_undefined
  | some v => exact ho v rfl

lemma all_arg (hargs : k.All args) (i : Nat) : k.All (arg args i) :=
  all_getD fun v hv => hargs v (mem_of_getElem? hv)

lemma all_insertAll (hb : k.All b) (hes : k.All es) : k.All (b.insertAll es) := by
  intro v hv
  obtain hv | hv := Bindings.mem_values_insertAll hv
  · exact hb v hv
  · obtain ⟨e, he, rfl⟩ := mem_map.1 hv
    exact (hes e he).2

lemma all_ofList (hes : k.All es) : k.All (Bindings.ofList es) := all_insertAll (b := .empty) nofun hes

lemma all_entries (hb : k.All b) : k.All b.entries :=
  fun e he => ⟨trivial, hb e.2 (mem_map_of_mem he)⟩

lemma all_values (hes : k.All es) : k.All (es.map (·.2)) := by
  intro v hv
  obtain ⟨e, he, rfl⟩ := mem_map.1 hv
  exact (hes e he).2

lemma all_get? (hb : k.All b) (name : String) : k.All (b.get? name) :=
  fun _ hv => hb _ (Bindings.mem_values_of_get? hv)

/-! Texts. -/

lemma all_char (c : Char) : k.All (Value.text c.toString) := k.short (by simp [maxTextLength])

lemma all_chars (s : String) : k.All (s.toList.map fun c => Value.text c.toString) := by
  intro v hv
  obtain ⟨c, -, rfl⟩ := mem_map.1 hv
  exact all_char c

/-! Cells. -/

lemma all_array (hh : k.All h) (ref : Nat) : k.All (h.array ref).toList := hh.1 ref

lemma all_object (hh : k.All h) (ref : Nat) : k.All (h.object ref) := hh.2.1 ref

lemma all_fieldsOf (hh : k.All h) (v : Value) : k.All (fieldsOf h v) := by
  have hnumbered : ∀ vs : List Value, k.All vs → k.All (vs.zipIdx.map fun p => (Decimal.digitsText p.2, p.1)) := by
    intro vs hvs e he
    obtain ⟨p, hp, rfl⟩ := mem_map.1 he
    exact ⟨trivial, hvs p.1 (fst_mem_of_mem_zipIdx hp)⟩
  cases v with
  | object ref => exact all_entries (all_object hh ref)
  | array ref => exact hnumbered _ (all_array hh ref)
  | text s => exact hnumbered _ (all_chars s)
  | _ => exact all_nil

lemma all_flattenItems (hh : k.All h) {vs : List Value} (hvs : k.All vs) : k.All (flattenItems h vs) := by
  intro v hv
  obtain ⟨w, hw, hv⟩ := mem_flatMap.1 hv
  cases w with
  | array ref => exact all_array hh ref v hv
  | _ =>
    obtain rfl := mem_singleton.1 hv
    exact hvs _ hw

lemma all_extract {items : Array Value} (hitems : k.All items.toList) (i j : Nat) : k.All (items.extract i j).toList :=
  all_of_subset hitems fun v hv => by
    rw [Array.toList_extract] at hv
    exact mem_of_mem_drop (mem_of_mem_take hv)

lemma all_resize (hitems : k.All items.toList) (n : Nat) : k.All (resize items n).toList := by
  unfold resize
  split
  · exact all_extract hitems 0 n
  · intro v hv
    simp only [Array.toList_append, Array.toList_replicate, mem_append, mem_replicate] at hv
    obtain hv | ⟨-, rfl⟩ := hv
    · exact hitems v hv
    · exact all_undefined

lemma all_storeAt (hitems : k.All items.toList) (i : Nat) (hv : k.All v) : k.All (storeAt items i v).toList := by
  intro w hw
  unfold storeAt at hw
  rw [Array.toList_setIfInBounds] at hw
  obtain hw | rfl := mem_or_eq_of_mem_set hw
  · split at hw
    · exact hitems w hw
    · exact all_resize hitems _ w hw
  · exact hv

/-! Parameters. -/

lemma all_captured (hframes : k.All frames) : k.All (captured frames) := by
  induction frames with
  | nil => exact nofun
  | cons f rest ih =>
    rw [captured_cons]
    exact all_insertAll (ih (all_cons.1 hframes).2) (all_entries (all_cons.1 hframes).1)

lemma all_insert (hb : k.All b) (name : String) (hv : k.All v) : k.All (b.insert name v) := by
  intro w hw
  obtain rfl | hw := Bindings.mem_values_insert hw
  · exact hv
  · exact hb w hw

lemma all_assignLocal (hframes : k.All frames) (name : String) {v : Value} (hv : k.All v) :
    k.All (assignLocal name v frames) := by
  induction frames with
  | nil => exact nofun
  | cons f rest ih =>
    rw [all_cons] at hframes
    unfold assignLocal
    split
    · exact all_cons.2 ⟨all_insert hframes.1 name hv, hframes.2⟩
    · exact all_cons.2 ⟨hframes.1, ih hframes.2⟩

lemma all_callFrame {captures : Bindings Value} (hcaptures : k.All captures) (hargs : k.All args)
    (params : List String) : k.All (callFrame params captures args) := by
  refine all_insertAll hcaptures fun e he => ?_
  obtain ⟨⟨name, i⟩, -, rfl⟩ := mem_map.1 he
  exact ⟨trivial, all_arg hargs i⟩

end Kind

/-! Accords. -/

/-- The environments of two evaluations that are compared. The limits of the second may be wider if
it is let off anyhow, the first alone may be strict, and nothing but the library may write to a
marked object. -/
structure Terms where
  left : Env
  right : Env
  /-- With how many warnings the second evaluation is let off when the first one fails. -/
  lax : Nat → Prop
  marked : Nat → Prop
  lax_mono : ∀ {k n}, k ≤ n → lax k → lax n
  scope_eq : ∀ s, right.scope s = left.scope s
  strict_eq : right.strict = left.strict ∨ left.strict = true ∧ right.strict = false
  iterations_eq : right.maxIterations = left.maxIterations ∨ (∀ n, lax n) ∧ left.maxIterations ≤ right.maxIterations
  depth_eq : right.maxDepth = left.maxDepth ∨ (∀ n, lax n) ∧ left.maxDepth ≤ right.maxDepth
  marked_eq : ∀ {ref}, marked ref → ref = left.constants

def Terms.same (env : Env) (guarded : Prop) : Terms where
  left := env
  right := env
  lax := never
  marked := fun ref => guarded ∧ ref = env.constants
  lax_mono := fun _ hlax => hlax
  scope_eq := fun _ => rfl
  strict_eq := .inl rfl
  iterations_eq := .inl rfl
  depth_eq := .inl rfl
  marked_eq := And.right

lemma Heap.function?_newFunction {h : Heap} {ref : Nat} {f g : Function} (hg : (h.newFunction f).2.function? ref = some g) :
    g = f ∨ h.function? ref = some g := by
  by_cases he : ref = h.functions.size <;> simp_all [function?, newFunction, Array.getElem?_push]

inductive Allocates (value : Value → Prop) (text : String → Prop) (fits : Expr → Prop) (h : Heap) : Value × Heap → Prop
  | array {items : Array Value} : (∀ v ∈ items, value v) → Allocates value text fits h (h.newArray items)
  | object {fields : Bindings Value} : (∀ v ∈ fields.values, value v) → Allocates value text fits h (h.newObject fields)
  | closure {params : List String} {body : Expr} {captures : Bindings Value} : (∀ v ∈ captures.values, value v) →
    fits body → Allocates value text fits h (h.newFunction (.closure params body captures))
  | builtin (b : Builtin) : Allocates value text fits h (h.newFunction (.builtin b))
  | method (name : String) : Allocates value text fits h (h.newFunction (.method name))
  | pattern {p : Pattern} : text p.source → text p.flags → Allocates value text fits h (h.newPattern p)

/-- How two evaluations are compared. The relation between their machines carries the number of
functions entered since the comparison began. The kind of the values that the evaluations have got
hold of may depend on how far the second one has come. -/
structure Accord (ω ω' : Type) extends Terms where
  rel : Nat → Machine ω → Machine ω' → Prop
  kind : Machine ω' → Kind
  /-- What is evaluated, inside of arrow functions and outside. -/
  form : Bool → Form → Prop
  /-- Where what is evaluated stands. -/
  located : Text.Span → Prop := fun _ => True
  le : Machine ω' → Machine ω' → Prop
  le_refl : ∀ m, le m m
  le_trans : ∀ {m₁ m₂ m₃}, le m₁ m₂ → le m₂ m₃ → le m₁ m₃
  kind_mono : ∀ {m m' v}, le m m' → (kind m).holds v → (kind m').holds v
  heap_eq : ∀ {n m m'}, rel n m m' → m'.heap = m.heap
  captured_eq : ∀ {n m m'}, rel n m m' → captured m'.frames = captured m.frames
  all_heap : ∀ {n m m'}, rel n m m' → (kind m').All m'.heap
  all_frames : ∀ {n m m'}, rel n m m' → (kind m').All m'.frames
  all_scope : ∀ {n m m'} s, rel n m m' → (kind m').holds (.object (left.scope s))
  literal : ∀ {inside form' s}, form inside form' → s ∈ form'.literals → ∀ m, (kind m).holds (.text s)
  closure : ∀ {n m m' ref params body captures}, rel n m m' →
    m'.heap.function? ref = some (.closure params body captures) → body.Each form true
  spans : ∀ {n m m' ref params body captures}, rel n m m' →
    m'.heap.function? ref = some (.closure params body captures) → body.SpansIn located := by exact fun _ _ _ _ => trivial
  pattern : ∀ {n m m' ref p}, rel n m m' → m'.heap.pattern? ref = some p →
    ∀ m, (kind m).holds (.text p.source) ∧ (kind m).holds (.text p.flags)
  make_cell : ∀ {n m m' r}, rel n m m' →
    Allocates (kind m').holds (fun s => ∀ m, (kind m).holds (.text s))
      (fun body => body.Each form true ∧ body.SpansIn located) m.heap r →
    rel n { m with heap := r.2 } { m' with heap := r.2 } ∧ le m' { m' with heap := r.2 } ∧
      (kind { m' with heap := r.2 }).holds r.1
  /-- Nothing is asked of the values of evaluations that may be let off. -/
  free : ∀ {k}, lax k → (∀ m v, (kind m).holds v) ∧ (∀ m m', le m m') ∧ ∀ inside form', form inside form'
  free_spans : ∀ {k}, lax k → ∀ s, located s := by exact fun _ _ => trivial
  add_warning : ∀ {n m m'} s, left.strict = false → rel n m m' →
    rel n { m with warnings := m.warnings.push s } { m' with warnings := m'.warnings.push s } ∧
      le m' { m' with warnings := m'.warnings.push s }
  /-- A warning of the second evaluation where the first one fails is enough to let it off. -/
  lax_of_warned : right.strict ≠ left.strict → ∀ {n m m'}, rel n m m' → lax (m'.warnings.size + 1) := by
    exact fun h => absurd rfl h

namespace Accord

variable {ω ω' α β γ : Type}

structure Runs (A : Accord ω ω') : Prop where
  random_eq : ∀ {n m m'}, A.rel n m m' → m'.random = m.random
  set_random : ∀ {n m m'} x, A.rel n m m' → A.rel n { m with random := x } { m' with random := x } ∧
    A.le m' { m' with random := x }
  assign_local : ∀ {n m m' v} name, A.rel n m m' → (A.kind m').holds v →
    A.rel n { m with frames := assignLocal name v m.frames } { m' with frames := assignLocal name v m'.frames } ∧
      A.le m' { m' with frames := assignLocal name v m'.frames }
  push_frame : ∀ {n m m' f}, A.rel n m m' → (A.kind m').All f →
    A.rel (n + 1) { m with frames := f :: m.frames } { m' with frames := f :: m'.frames } ∧
      A.le m' { m' with frames := f :: m'.frames }
  pop_frame : ∀ {n m m'}, A.rel (n + 1) m m' →
    A.rel n { m with frames := m.frames.tail } { m' with frames := m'.frames.tail } ∧
      A.le m' { m' with frames := m'.frames.tail }

structure Writes (A : Accord ω ω') : Prop where
  set_array : ∀ {n m m' f} ref, A.rel n m m' → (A.kind m').All (f (m.heap.array ref)).toList →
    A.rel n { m with heap := m.heap.modifyArray ref f } { m' with heap := m.heap.modifyArray ref f } ∧
      A.le m' { m' with heap := m.heap.modifyArray ref f }
  set_object : ∀ {n m m' ref f}, A.rel n m m' → ¬ A.marked ref → (A.kind m').All (f (m.heap.object ref)) →
    A.rel n { m with heap := m.heap.modifyObject ref f } { m' with heap := m.heap.modifyObject ref f } ∧
      A.le m' { m' with heap := m.heap.modifyObject ref f }

/-- An expression of forms that are given leave and with parts that stand where they may. -/
def Allows (A : Accord ω ω') (inside : Bool) (e : Expr) : Prop := e.Each A.form inside ∧ e.SpansIn A.located

/-- An error that says where it happened says so rightly. -/
def Tells (A : Accord ω ω') (e : ScriptError) : Prop := ∀ s, e.span = some s → A.located s

/-- The second result is like the first, in a machine that has come further and with a value as it
is asked for. -/
inductive Agrees (A : Accord ω ω') (n : Nat) (w : Machine ω') (Q : Machine ω' → α → Prop) (lax : Prop) :
    EStateM.Result ScriptError (Machine ω) α → EStateM.Result ScriptError (Machine ω') α → Prop
  | ok {a : α} {m : Machine ω} {m' : Machine ω'} : A.rel n m m' → A.le w m' → Q m' a → Agrees A n w Q lax (.ok a m) (.ok a m')
  | error {e : ScriptError} {m : Machine ω} {m' : Machine ω'} : A.rel n m m' → A.le w m' → A.Tells e →
    Agrees A n w Q lax (.error e m) (.error e m')
  /-- A lax comparison asks nothing after a failure. -/
  | off {e : ScriptError} {m : Machine ω} {r : EStateM.Result ScriptError (Machine ω') α} : lax → Agrees A n w Q lax (.error e m) r

lemma Agrees.ends {A : Accord ω ω'} {n : Nat} {w : Machine ω'} {Q : Machine ω' → α → Prop}
    {x : EStateM.Result ScriptError (Machine ω) α} {y : EStateM.Result ScriptError (Machine ω') α}
    (h : A.Agrees n w Q False x y) : A.rel n (ending x) (ending y) := by
  cases h with
  | ok hr | error hr => exact hr
  | off hlax => exact hlax.elim

/-- From machines that are in accord, the second of which has come as far as a given one, the two
computations come to results that agree. -/
structure AbreastTo (A : Accord ω ω') (n : Nat) (w : Machine ω') (Q : Machine ω' → α → Prop)
    (x : ScriptM ω α) (y : ScriptM ω' α) : Prop where
  agrees : ∀ m m', A.rel n m m' → A.le w m' → A.Agrees n w Q (A.lax (ending (y m')).warnings.size) (x m) (y m')
  stray : ∀ (_ : Machine ω) m', A.lax m'.warnings.size → A.lax (ending (y m')).warnings.size

def Known (A : Accord ω ω') [Holding α] (m : Machine ω') (a : α) : Prop := (A.kind m).All a

abbrev Abreast (A : Accord ω ω') (n : Nat) (w : Machine ω') [Holding α] (x : ScriptM ω α)
    (y : ScriptM ω' α) : Prop :=
  A.AbreastTo n w A.Known x y

abbrev Both (A : Accord ω ω') (n : Nat) (w : Machine ω') [Holding α] (x : ∀ {ω : Type}, ScriptM ω α) : Prop :=
  A.Abreast n w (x : ScriptM ω α) (x : ScriptM ω' α)

variable {A : Accord ω ω'} {n : Nat} {w w' : Machine ω'} [Holding α]

@[simp] lemma known_iff {a : α} : A.Known w a ↔ (A.kind w).All a := .rfl

lemma allows_mk {inside : Bool} {span : Text.Span} {form : Form} : A.Allows inside (.mk span form) ↔ A.located span ∧
    A.form inside form ∧ ∀ part ∈ form.parts, A.Allows (form.isArrow || inside) part.2 := by
  simp only [Allows, Expr.each_mk, Expr.spansIn_mk]
  grind

lemma Allows.part {inside anew : Bool} {span : Text.Span} {form : Form} {e : Expr} (h : A.Allows inside (.mk span form))
    (he : (anew, e) ∈ form.parts) : A.Allows (form.isArrow || inside) e :=
  (allows_mk.1 h).2.2 _ he

lemma tells_of_none {e : ScriptError} (h : e.span = none) : A.Tells e := fun _ hs => nomatch h.symm.trans hs

lemma mono {a : α} (hle : A.le w w') (ha : (A.kind w).All a) : (A.kind w').All a := Holding.imp (fun _ => A.kind_mono hle) ha

structure Sees (A : Accord ω ω') (w : Machine ω') (h : Heap) : Prop where
  values : (A.kind w).All h
  closure : ∀ {ref params body captures}, h.function? ref = some (.closure params body captures) → A.Allows true body
  pattern : ∀ {ref p}, h.pattern? ref = some p → (A.kind w).holds (.text p.source) ∧ (A.kind w).holds (.text p.flags)

lemma Agrees.rebase {Q : Machine ω' → β → Prop} {lax : Prop} {r : EStateM.Result ScriptError (Machine ω) β}
    {r' : EStateM.Result ScriptError (Machine ω') β} (h : A.Agrees n w' Q lax r r') (hle : A.le w w') : A.Agrees n w Q lax r r' := by
  cases h with
  | ok hr hle' hb => exact .ok hr (A.le_trans hle hle') hb
  | error hr hle' he => exact .error hr (A.le_trans hle hle') he
  | off hlax => exact .off hlax

namespace AbreastTo

variable {Q : Machine ω' → β → Prop} {P : Machine ω' → γ → Prop}
variable {x x' : ScriptM ω α} {y y' : ScriptM ω' α}

lemma pureTo {b : β} (h : ∀ w', A.le w w' → Q w' b) :
    A.AbreastTo n w Q (pure b : ScriptM ω β) (pure b : ScriptM ω' β) :=
  ⟨fun _ m' hr hle => .ok hr hle (h m' hle), fun _ _ hlax => hlax⟩

@[simp] lemma pure {a : α} (ha : (A.kind w).All a) :
    A.Abreast n w (pure a : ScriptM ω α) (pure a : ScriptM ω' α) :=
  pureTo fun _ hle => mono hle ha

lemma throwTo {e : ScriptError} (he : A.Tells e) : A.AbreastTo n w Q (throw e : ScriptM ω β) (throw e : ScriptM ω' β) :=
  ⟨fun _ _ hr hle => .error hr hle he, fun _ _ hlax => hlax⟩

@[simp] lemma throw (cause : Cause) :
    A.AbreastTo n w Q (throw ⟨cause, none⟩ : ScriptM ω β) (throw ⟨cause, none⟩ : ScriptM ω' β) := throwTo nofun

lemma bindTo {u : ScriptM ω γ} {v : ScriptM ω' γ} {f : γ → ScriptM ω β}
    {g : γ → ScriptM ω' β} (hu : A.AbreastTo n w P u v) (hfree : ∀ {k}, A.lax k → ∀ c, P w c)
    (hf : ∀ w' c, A.le w w' → P w' c → A.AbreastTo n w' Q (f c) (g c)) : A.AbreastTo n w Q (u >>= f) (v >>= g) := by
  -- an evaluation that is let off still is after what comes next
  have hafter : ∀ (_ : Machine ω) m', A.lax (ending (v m')).warnings.size → A.lax (ending ((v >>= g) m')).warnings.size := by
    intro m m' hr
    change A.lax (ending (EStateM.bind v g m')).warnings.size
    unfold EStateM.bind
    generalize v m' = r at hr
    cases r with
    | ok c m' => exact (hf w c (A.le_refl w) (hfree hr c)).stray m m' hr
    | error e m' => exact hr
  refine ⟨fun m m' hr hle => ?_, fun m m' hlax => hafter m m' (hu.stray m m' hlax)⟩
  have hm := hu.agrees m m' hr hle
  have hafter := hafter m m'
  change A.Agrees n w Q (A.lax (ending (EStateM.bind v g m')).warnings.size) (EStateM.bind u f m) (EStateM.bind v g m')
  change _ → A.lax (ending (EStateM.bind v g m')).warnings.size at hafter
  unfold EStateM.bind at hafter ⊢
  generalize u m = r, v m' = r' at hm hafter
  cases hm with
  | @ok c m m' hr hle hc =>
    exact ((hf m' c hle hc).agrees m m' hr (A.le_refl m')).rebase hle
  | error hr hle he => exact .error hr hle he
  | off hlax => exact .off (hafter hlax)

@[simp] lemma bind {f : α → ScriptM ω β} {g : α → ScriptM ω' β} (hx : A.Abreast n w x y)
    (hf : ∀ w' a, A.le w w' → (A.kind w').All a → A.AbreastTo n w' Q (f a) (g a)) :
    A.AbreastTo n w Q (x >>= f) (y >>= g) :=
  bindTo hx (fun hlax _ => Holding.of_forall ((A.free hlax).1 w)) hf

@[simp] lemma map {f : α → β} (hx : A.Abreast n w x y)
    (hf : ∀ w' a, A.le w w' → (A.kind w').All a → Q w' (f a)) : A.AbreastTo n w Q (f <$> x) (f <$> y) := by
  rw [map_eq_pure_bind, map_eq_pure_bind]
  exact bind hx fun w' a hle ha => pureTo fun w'' hle' => hf w'' a (A.le_trans hle hle') (mono hle' ha)

lemma ite {c : Prop} [Decidable c] {x' : ScriptM ω β} {y' : ScriptM ω' β}
    {x : ScriptM ω β} {y : ScriptM ω' β} (hx : A.AbreastTo n w Q x y)
    (hx' : A.AbreastTo n w Q x' y') : A.AbreastTo n w Q (if c then x else x') (if c then y else y') := by
  split <;> assumption

@[simp] lemma ite_iff {c : Prop} [Decidable c] {x x' : ScriptM ω β} {y y' : ScriptM ω' β} :
    A.AbreastTo n w Q (if c then x else x') (if c then y else y') ↔
      (c → A.AbreastTo n w Q x y) ∧ (¬ c → A.AbreastTo n w Q x' y') := by
  by_cases hc : c <;> simp [hc]

lemma imp {Q' : Machine ω' → β → Prop} {x : ScriptM ω β} {y : ScriptM ω' β}
    (hx : A.AbreastTo n w Q x y) (h : ∀ w' b, A.le w w' → Q w' b → Q' w' b) : A.AbreastTo n w Q' x y := by
  refine ⟨fun m m' hr hle => ?_, hx.stray⟩
  have hm := hx.agrees m m' hr hle
  generalize x m = r, y m' = r' at hm ⊢
  cases hm with
  | ok hr hle hb => exact .ok hr hle (h _ _ hle hb)
  | error hr hle he => exact .error hr hle he
  | off hlax => exact .off hlax

lemma released {x : ScriptM ω β} {y : ScriptM ω' β} (hlax : ∀ k, A.lax k)
    (hx : ∀ m, ∃ e m', x m = .error e m') : A.AbreastTo n w Q x y := by
  refine ⟨fun m _ _ _ => ?_, fun _ _ _ => hlax _⟩
  obtain ⟨e, m', he⟩ := hx m
  exact he ▸ .off (hlax _)

@[simp] lemma mapM {f : γ → ScriptM ω α} {g : γ → ScriptM ω' α} {items : List γ}
    (hf : ∀ w' c, A.le w w' → c ∈ items → A.Abreast n w' (f c) (g c)) : A.Abreast n w (items.mapM f) (items.mapM g) := by
  induction items generalizing w with
  | nil =>
    rw [mapM_nil, mapM_nil]
    exact pure Kind.all_nil
  | cons c rest ih =>
    rw [mapM_cons, mapM_cons]
    refine bind (hf w c (A.le_refl w) mem_cons_self) fun w' a hle ha => ?_
    refine bind (ih fun w'' c hle' hc => hf w'' c (A.le_trans hle hle') (mem_cons_of_mem _ hc))
      fun w'' as hle' has => ?_
    exact pure (Kind.all_cons.2 ⟨mono hle' ha, has⟩)

lemma forM {f : γ → ScriptM ω PUnit} {g : γ → ScriptM ω' PUnit} (items : List γ)
    (hf : ∀ w' c, A.le w w' → A.Abreast n w' (f c) (g c)) : A.Abreast n w (items.forM f) (items.forM g) := by
  induction items generalizing w with
  | nil => exact pure trivial
  | cons c rest ih =>
    exact bind (hf w c (A.le_refl w)) fun w' _ hle _ => ih fun w'' c hle' => hf w'' c (A.le_trans hle hle')

lemma run {less : γ → γ → ScriptM ω Bool} {less' : γ → γ → ScriptM ω' Bool}
    (t : Sorting.Asking γ α) (hall : ∀ a : α, (A.kind w).All a)
    (hless : ∀ w' u v, A.le w w' → A.Abreast n w' (less u v) (less' u v)) : A.Abreast n w (t.run less) (t.run less') := by
  induction t generalizing w with
  | done r => exact pure (hall r)
  | ask u v next ih =>
    exact bind (hless w u v (A.le_refl w)) fun w' b hle _ =>
      ih b (fun a => mono hle (hall a)) fun w'' u v hle' => hless w'' u v (A.le_trans hle hle')

/-! The steps that every expression takes. -/

lemma of_ok {x : ScriptM ω β} {y : ScriptM ω' β} (hkeep : ∀ m', (ending (y m')).warnings = m'.warnings)
    (h : ∀ m m', A.rel n m m' → A.le w m' → ∃ b m₁ m₁', x m = .ok b m₁ ∧ y m' = .ok b m₁' ∧ A.rel n m₁ m₁' ∧
      A.le m' m₁' ∧ Q m₁' b) :
    A.AbreastTo n w Q x y := by
  refine ⟨fun m m' hr hle => ?_, fun _ m' hlax => by rwa [hkeep]⟩
  obtain ⟨b, m₁, m₁', hx, hy, hr', hle', hb⟩ := h m m' hr hle
  rw [hx, hy]
  exact .ok hr' (A.le_trans hle hle') hb

lemma heap_ok {m : Machine ω} {m' : Machine ω'} (hr : A.rel n m m') :
    (ScriptM.heap : ScriptM ω' Heap) m' = .ok m.heap m' := by
  rw [← A.heap_eq hr]
  rfl

@[simp] lemma heap : A.Both n w ScriptM.heap :=
  of_ok (fun _ => rfl) fun m m' hr _ => ⟨m.heap, m, m', rfl, heap_ok hr, hr, A.le_refl _, A.heap_eq hr ▸ A.all_heap hr⟩

lemma bind_heap {f : Heap → ScriptM ω β} {g : Heap → ScriptM ω' β}
    (h : ∀ w' h, A.le w w' → A.Sees w' h → A.AbreastTo n w' Q (f h) (g h)) :
    A.AbreastTo n w Q (ScriptM.heap >>= f) (ScriptM.heap >>= g) := by
  refine bindTo (P := A.Sees) (of_ok (fun _ => rfl) fun m m' hr _ => ?_) (fun hlax h => ?_) h
  · have hsees : A.Sees m' m'.heap := ⟨A.all_heap hr, fun hf => ⟨A.closure hr hf, A.spans hr hf⟩, fun hp => A.pattern hr hp m'⟩
    exact ⟨m.heap, m, m', rfl, heap_ok hr, hr, A.le_refl _, A.heap_eq hr ▸ hsees⟩
  · have ⟨hany, _, hform⟩ := A.free hlax
    exact ⟨Holding.of_forall (hany w), fun _ => ⟨fun _ _ _ => hform _ _, fun _ _ => A.free_spans hlax _⟩,
      fun _ => ⟨hany w _, hany w _⟩⟩

lemma bind_get {f : Machine ω → ScriptM ω β} {g : Machine ω' → ScriptM ω' β}
    (h : ∀ w' m m', A.le w w' → captured m'.frames = captured m.frames → (A.kind w').All (captured m.frames) →
      A.AbreastTo n w' Q (f m) (g m')) :
    A.AbreastTo n w Q (get >>= f) (get >>= g) where
  agrees := fun m m' hr hle =>
    have hframes := A.captured_eq hr
    ((h m' m m' hle hframes (hframes ▸ Kind.all_captured (A.all_frames hr))).agrees m m' hr (A.le_refl m')).rebase hle
  stray := fun m m' hlax =>
    (h w { m with frames := m'.frames } m' (A.le_refl w) rfl (Holding.of_forall ((A.free hlax).1 w))).stray m m' hlax

@[simp] lemma refuse (p : TypeProblem) : A.AbreastTo n w Q (refuse p : ScriptM ω β) (refuse p) := throw _

lemma lift {r : Except ScriptError α} (hr : ∀ a, r = .ok a → (A.kind w).All a) (he : ∀ e, r = .error e → e.span = none) :
    A.Both n w (lift r) := by
  cases r with
  | ok a => exact pure (hr a rfl)
  | error e => exact throwTo (tells_of_none (he e rfl))

lemma allocate {f : Heap → Value × Heap} (hf : ∀ w' h, A.le w w' →
      Allocates (A.kind w').holds (fun s => ∀ m, (A.kind m).holds (.text s)) (A.Allows true) h (f h)) : A.Both n w (allocate f) :=
  of_ok (fun _ => rfl) fun m m' hr hle =>
    ⟨(f m.heap).1, _, _, rfl, by rw [← A.heap_eq hr]; rfl, A.make_cell hr (hf m' m.heap hle)⟩

lemma newArray (hitems : (A.kind w).All items.toList) : A.Both n w (newArray items) :=
  allocate fun _ _ hle => .array fun v hv => mono hle (hitems v hv.val)

@[simp] lemma newList {items : List Value} (hitems : (A.kind w).All items) : A.Both n w (newList items) := newArray hitems

@[simp] lemma newObject {fields : Bindings Value} (hfields : (A.kind w).All fields) : A.Both n w (newObject fields) :=
  allocate fun _ _ hle => .object fun v hv => mono hle (hfields v hv)

@[simp] lemma newBuiltin (b : Builtin) : A.Both n w (newFunction (.builtin b)) := allocate fun _ _ _ => .builtin b

@[simp] lemma newMethod (name : String) : A.Both n w (newFunction (.method name)) := allocate fun _ _ _ => .method name

@[simp] lemma display (v : Value) : A.Both n w (display v) := bind heap fun _ _ _ _ => pure trivial

@[simp] lemma toNumber (v : Value) : A.Both n w (toNumber v) := bind heap fun _ _ _ _ => pure trivial

lemma warn (message : String) (hstrict : A.left.strict = false) : A.Both n w (warn message) where
  agrees := fun _ _ hr hle =>
    have ⟨hr', hle'⟩ := A.add_warning message hstrict hr
    .ok hr' (A.le_trans hle hle') trivial
  stray := fun _ m' hlax => by
    change A.lax (m'.warnings.push message).size
    rw [Array.size_push]
    exact A.lax_mono (Nat.le_succ _) hlax

lemma checkTextLength {x : ScriptM ω β} {y : ScriptM ω' β} {length : Nat}
    (h : length ≤ maxTextLength → A.AbreastTo n w Q x y) :
    A.AbreastTo n w Q (do ScriptM.checkTextLength length; x) (do ScriptM.checkTextLength length; y) := by
  by_cases hlong : length > maxTextLength
  · simp only [ScriptM.checkTextLength, if_pos hlong]
    exact throw _
  · simp only [ScriptM.checkTextLength, if_neg hlong]
    exact h (by omega)

@[simp] lemma checkIterations (count : Nat) :
    A.Abreast n w (checkIterations A.left count : ScriptM ω Unit) (checkIterations A.right count : ScriptM ω' Unit) := by
  unfold ScriptM.checkIterations
  rcases A.iterations_eq with he | ⟨hlax, hle⟩
  · rw [he]
    exact ite (throw _) (pure trivial)
  · by_cases hc : count > A.left.maxIterations
    · rw [if_pos hc]
      exact released hlax fun m => ⟨_, m, rfl⟩
    · rw [if_neg hc, if_neg (by omega)]
      exact pure trivial

lemma locating {x : ScriptM ω β} {y : ScriptM ω' β} {span : Text.Span} (hspan : A.located span) (h : A.AbreastTo n w Q x y) :
    A.AbreastTo n w Q (locating span x) (locating span y) := by
  have hend : ∀ m', ending (ScriptM.locating span y m') = ending (y m') := by
    intro m'
    unfold ScriptM.locating
    cases y m' <;> rfl
  refine ⟨fun m m' hr hle => ?_, fun m m' hlax => (hend m').symm ▸ h.stray m m' hlax⟩
  have hm := h.agrees m m' hr hle
  rw [hend]
  unfold ScriptM.locating
  generalize x m = r, y m' = r' at hm ⊢
  cases hm with
  | ok hr hle hb => exact .ok hr hle hb
  | @error e _ _ hr hle he =>
    refine .error hr hle fun s hs => ?_
    unfold ScriptError.locate at hs
    split at hs
    · exact he s hs
    · cases hs
      exact hspan
  | off hlax => exact .off hlax

lemma withFrame (hruns : A.Runs) {x : ScriptM ω α} {y : ScriptM ω' α} {f : Bindings Value} (hf : (A.kind w).All f)
    (h : A.Abreast (n + 1) w x y) : A.Abreast n w (withFrame f x) (withFrame f y) := by
  have hend : ∀ m', (ending (ScriptM.withFrame f y m')).warnings =
      (ending (y { m' with frames := f :: m'.frames })).warnings := by
    intro m'
    unfold ScriptM.withFrame
    cases y { m' with frames := f :: m'.frames } <;> rfl
  refine ⟨fun m m' hr hle => ?_, fun m m' hlax => by rw [hend]; exact h.stray m { m' with frames := f :: m'.frames } hlax⟩
  have ⟨hr', hle'⟩ := hruns.push_frame hr (mono hle hf)
  have hm := h.agrees _ _ hr' (A.le_trans hle hle')
  rw [hend]
  unfold ScriptM.withFrame
  generalize x { m with frames := f :: m.frames } = r, y { m' with frames := f :: m'.frames } = r' at hm
  cases hm with
  | ok hr hle ha =>
    have ⟨hr', hle'⟩ := hruns.pop_frame hr
    exact .ok hr' (A.le_trans hle hle') (mono hle' ha)
  | error hr hle he =>
    have ⟨hr', hle'⟩ := hruns.pop_frame hr
    exact .error hr' (A.le_trans hle hle') he
  | off hlax => exact .off hlax

lemma modifyArray (hwrites : A.Writes) {f : Array Value → Array Value} (ref : Nat)
    (hf : ∀ w' items, A.le w w' → (A.kind w').All items.toList → (A.kind w').All (f items).toList) :
    A.Both n w (modifyHeap fun h => h.modifyArray ref f) :=
  of_ok (fun _ => rfl) fun m m' hr hle =>
    have hitems : (A.kind m').All (m.heap.array ref).toList := A.heap_eq hr ▸ Kind.all_array (A.all_heap hr) ref
    have ⟨hr', hle'⟩ := hwrites.set_array ref hr (hf m' _ hle hitems)
    ⟨(), _, _, rfl, by rw [← A.heap_eq hr]; rfl, hr', hle', trivial⟩

lemma modifyObject (hwrites : A.Writes) {f : Bindings Value → Bindings Value} {ref : Nat} (href : ¬ A.marked ref)
    (hf : ∀ w' b, A.le w w' → (A.kind w').All b → (A.kind w').All (f b)) :
    A.Both n w (modifyHeap fun h => h.modifyObject ref f) :=
  of_ok (fun _ => rfl) fun m m' hr hle =>
    have hfields : (A.kind m').All (m.heap.object ref) := A.heap_eq hr ▸ Kind.all_object (A.all_heap hr) ref
    have ⟨hr', hle'⟩ := hwrites.set_object hr href (hf m' _ hle hfields)
    ⟨(), _, _, rfl, by rw [← A.heap_eq hr]; rfl, hr', hle', trivial⟩

end AbreastTo
end Accord
end StoryMarkup.Script
