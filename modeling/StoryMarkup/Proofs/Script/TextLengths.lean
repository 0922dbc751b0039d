import StoryMarkup.Proofs.Script.Evaluation
import StoryMarkup.Proofs.Script.Nesting

/-! How long texts get, with the length of the longest that is not held to the limit on record. -/
namespace StoryMarkup.Script

open List ScriptM Heap
open Accord (AbreastTo)

variable {ω : Type}

def Value.Within (limit : Nat) : Value → Prop
  | .text s => s.length ≤ limit
  | _ => True

structure Machine.Within (limit : Nat) (m : Machine ω) : Prop where
  arrays : ∀ ref, ∀ v ∈ (m.heap.array ref).toList, v.Within limit
  objects : ∀ ref, ∀ v ∈ (m.heap.object ref).values, v.Within limit
  captures : ∀ ref params body captures, m.heap.function? ref = some (.closure params body captures) →
    ∀ v ∈ captures.values, v.Within limit
  frames : ∀ f ∈ m.frames, ∀ v ∈ f.values, v.Within limit

def Form.Short (form : Form) : Prop := ∀ s ∈ form.literals, s.length ≤ maxTextLength

structure Heap.ShortCode (h : Heap) : Prop where
  functions : ∀ {ref params body captures}, h.function? ref = some (.closure params body captures) →
    body.Each (fun _ => Form.Short) true
  patterns : ∀ {ref p}, h.pattern? ref = some p → p.source.length ≤ maxTextLength ∧ p.flags.length ≤ maxTextLength

/-! Measured evaluation. -/

structure Lengths where
  /-- The length of the longest text that was made without a look at it. -/
  unlimited : Nat := 0
  /-- The length of the longest text that a part of an expression came to. -/
  produced : Nat := 0

abbrev Measured (ω : Type) := ω × Lengths

namespace Machine

def measured (m : Machine ω) : Machine (Measured ω) := { m with host := (m.host, {}) }

def unmeasured (m : Machine (Measured ω)) : Machine ω := { m with host := m.host.1 }

def bound (m : Machine (Measured ω)) : Nat := max maxTextLength m.host.2.unlimited

end Machine

def measure (texts : List String) : ScriptM (Measured ω) Unit :=
  modify fun m =>
    { m with host := (m.host.1, { m.host.2 with unlimited := max m.host.2.unlimited ((texts.map String.length).max?.getD 0) }) }

def measuring (x : ScriptM (Measured ω) Value) : ScriptM (Measured ω) Value := do
  let v ← x
  match v with
  | .text s => measure [s]
  | _ => pure ()
  return v

def recording (x : ScriptM (Measured ω) Value) : ScriptM (Measured ω) Value := do
  let v ← x
  match v with
  | .text s => modify fun m => { m with host := (m.host.1, { m.host.2 with produced := max m.host.2.produced s.length }) }
  | _ => pure ()
  return v

def measuredVisit (form : Form) (x : ScriptM (Measured ω) Value) : ScriptM (Measured ω) Value :=
  recording (if form.limited then x else measuring x)

section Measuring

variable (env : Env)

def measuredMethod (plain : Value → List Value → ScriptM (Measured ω) Value) (name : String) (recv : Value)
    (args : List Value) : ScriptM (Measured ω) Value := do
  match recv, PatternMethod.ofName? name with
  | .pattern ref, some .exec =>
    match (← heap).pattern? ref with
    | some p =>
      let s ← argText args 0
      measure [s]
      firstMatch p s.toList.toArray
    | none => refuse (.notFunction name)
  | _, _ =>
    if recv.limits name then callMethod env plain name recv args
    else measuring (callMethod env plain name recv args)

def measuredCall (plain : Value → List Value → ScriptM (Measured ω) Value) (f : Value) (recv : Option Value)
    (args : List Value) : ScriptM (Measured ω) Value := do
  match f, recv with
  | .function ref, some r =>
    match (← heap).function? ref with
    | some (.method name) => measuredMethod env plain name r args
    | _ => plain f args
  | _, _ => plain f args

def measuredPairs (fields : List (String × Value)) : ScriptM (Measured ω) Value := do
  measure (fields.map (·.1))
  newList (← pairs fields)

def measuredLibrary : Library (Measured ω)
  | .keys, args => do
    let names := (fieldsOf (← heap) (arg args 0)).map (·.1)
    measure names
    newList (names.map Value.text)
  | .entries, args => do measuredPairs (fieldsOf (← heap) (arg args 0))
  | .arrayFrom, args =>
    match arg args 0 with
    | .object ref => do measuredPairs ((← heap).object ref).entries
    | v => do newList (← iterate v)
  | .jsonParse, args => do
    let s ← display (arg args 0)
    measure ((Json.parse s).toOption.elim [] Json.texts)
    parseJson s
  | b, args => if b.limited then callBuiltin b args else measuring (callBuiltin b args)

def measuredClosure (invoke : Invoker (Measured ω)) :
    Nat → List String → Expr → Bindings Value → List Value → ScriptM (Measured ω) Value
  | 0, _, _, _, _ => throw ⟨.callDepth env.maxDepth, none⟩
  | depth + 1, params, body, captures, args =>
    withFrame (callFrame params captures args) (evalWith env measuredVisit (writePlace env)
      (measuredCall env (callBy measuredLibrary invoke (measuredClosure invoke depth))) body)

/-- Evaluate the source of an expression, and measure all texts that are made without a look at
their length. -/
def measuredSource (invoke : Invoker (Measured ω)) (code : String) : ScriptM (Measured ω) Value := do
  let e ← lift (Expr.parse code.toList)
  evalWith env measuredVisit (writePlace env)
    (measuredCall env (callBy measuredLibrary invoke (measuredClosure env invoke env.maxDepth))) e

end Measuring

/-! Cells. -/

namespace Heap

variable {h : Heap} {ref : Nat}

lemma array_newArray_or (items : Array Value) (ref : Nat) :
    (h.newArray items).2.array ref = items ∨ (h.newArray items).2.array ref = h.array ref := by
  by_cases he : ref = h.arrays.size <;> simp [array, newArray, Array.getElem?_push, he]

lemma object_newObject_or (fields : Bindings Value) (ref : Nat) :
    (h.newObject fields).2.object ref = fields ∨ (h.newObject fields).2.object ref = h.object ref := by
  by_cases he : ref = h.objects.size <;> simp [object, newObject, Array.getElem?_push, he]

lemma pattern?_newPattern {p q : Pattern} (hq : (h.newPattern p).2.pattern? ref = some q) :
    q = p ∨ h.pattern? ref = some q := by
  by_cases he : ref = h.patterns.size <;> simp_all [pattern?, newPattern, Array.getElem?_push]

lemma array_modifyArray_or (h : Heap) (ref : Nat) (f : Array Value → Array Value) (other : Nat) :
    (h.modifyArray ref f).array other = f (h.array ref) ∨ (h.modifyArray ref f).array other = h.array other := by
  by_cases he : ref = other
  · subst he
    by_cases hlt : ref < h.arrays.size <;> simp [array, modifyArray, hlt, Array.getElem_modify_self]
  · simp [array, modifyArray, Array.getElem?_modify, he]

lemma object_modifyObject_or (h : Heap) (ref : Nat) (f : Bindings Value → Bindings Value) (other : Nat) :
    (h.modifyObject ref f).object other = f (h.object ref) ∨ (h.modifyObject ref f).object other = h.object other := by
  by_cases he : ref = other
  · subst he
    by_cases hlt : ref < h.objects.size <;> simp [object, modifyObject, hlt, Array.getElem_modify_self]
  · simp [object, modifyObject, Array.getElem?_modify, he]

end Heap

/-! Measured evaluation goes along with evaluation. -/

namespace Machine

structure Bounded (m : Machine (Measured ω)) : Prop where
  within : m.Within m.bound
  produced : m.host.2.produced ≤ m.bound
  code : m.heap.ShortCode

def kind (m : Machine (Measured ω)) : Kind where
  holds := Value.Within m.bound
  atom := fun {v} _ => by cases v <;> trivial
  short := fun hs => Nat.le_trans hs (Nat.le_max_left _ _)
  part := Nat.le_trans

variable {m : Machine (Measured ω)}

lemma Within.mono {ω' : Type} {limit limit' : Nat} {m : Machine ω} {m' : Machine ω'} (hm : m.Within limit)
    (hle : limit ≤ limit') (hheap : m'.heap = m.heap) (hframes : m'.frames = m.frames) : m'.Within limit' := by
  have hmono {v : Value} (hv : v.Within limit) : v.Within limit' := by
    cases v with
    | text s => exact Nat.le_trans hv hle
    | _ => trivial
  constructor
  · exact hheap ▸ fun ref v hv => hmono (hm.arrays ref v hv)
  · exact hheap ▸ fun ref v hv => hmono (hm.objects ref v hv)
  · exact hheap ▸ fun ref params body captures hf v hv => hmono (hm.captures ref params body captures hf v hv)
  · exact hframes ▸ fun f hf v hv => hmono (hm.frames f hf v hv)

lemma Within.all_heap {limit : Nat} {m : Machine ω} {k : Kind} (hk : k.holds =
    Value.Within limit) (hm : m.Within limit) :
    k.All m.heap ∧ k.All m.frames := by
  unfold Kind.All
  rw [hk]
  exact ⟨⟨hm.arrays, hm.objects, hm.captures⟩, hm.frames⟩

lemma Bounded.make_cell {r : Value × Heap} (hm : m.Bounded)
    (hr : Allocates m.kind.holds (fun s => ∀ m : Machine (Measured ω), m.kind.holds (.text s))
      (fun body => body.Each (fun _ => Form.Short) true ∧ body.SpansIn fun _ => True) m.heap r) :
    Bounded { m with heap := r.2 } ∧ m.kind.holds r.1 := by
  have ⟨⟨harrays, hobjects, hcaptures, hframes⟩, hproduced, hfunctions, hpatterns⟩ := hm
  cases hr with
  | array hitems =>
    refine ⟨⟨⟨fun ref v hv => ?_, hobjects, hcaptures, hframes⟩, hproduced, hfunctions, hpatterns⟩, trivial⟩
    obtain he | he := array_newArray_or (h := m.heap) _ ref
    · rw [he] at hv
      exact hitems v (by simpa using hv)
    · rw [he] at hv
      exact harrays ref v hv
  | object hfields =>
    refine ⟨⟨⟨harrays, fun ref v hv => ?_, hcaptures, hframes⟩, hproduced, hfunctions, hpatterns⟩, trivial⟩
    obtain he | he := object_newObject_or (h := m.heap) _ ref
    · rw [he] at hv
      exact hfields v hv
    · rw [he] at hv
      exact hobjects ref v hv
  | closure hkept hbody =>
    refine ⟨⟨⟨harrays, hobjects, fun ref params body captures hf => ?_, hframes⟩, hproduced, fun {ref} _ _ _ hf => ?_, hpatterns⟩,
      trivial⟩
    · obtain hf | hf := function?_newFunction hf
      · cases hf
        exact hkept
      · exact hcaptures ref params body captures hf
    · obtain hf | hf := function?_newFunction hf
      · cases hf
        exact hbody.1
      · exact hfunctions hf
  | builtin | method =>
    refine ⟨⟨⟨harrays, hobjects, fun ref params body captures hf => ?_, hframes⟩, hproduced, fun {ref} _ _ _ hf => ?_, hpatterns⟩,
      trivial⟩
    · obtain hf | hf := function?_newFunction hf
      · cases hf
      · exact hcaptures ref params body captures hf
    · obtain hf | hf := function?_newFunction hf
      · cases hf
      · exact hfunctions hf
  | pattern hsource hflags =>
    refine ⟨⟨⟨harrays, hobjects, hcaptures, hframes⟩, hproduced, hfunctions, fun hp => ?_⟩, trivial⟩
    obtain rfl | hp := pattern?_newPattern hp
    · have hshort {s : String} (hs : ∀ m : Machine (Measured ω), m.kind.holds (.text s)) : s.length ≤ maxTextLength := by
        simpa [kind, Value.Within, bound] using hs { m with host := (m.host.1, {}) }
      exact ⟨hshort hsource, hshort hflags⟩
    · exact hpatterns hp

lemma Bounded.with_frames (hm : m.Bounded) {frames : List (Bindings Value)} (hframes : m.kind.All frames) :
    Bounded { m with frames := frames } :=
  ⟨⟨hm.within.arrays, hm.within.objects, hm.within.captures, hframes⟩, hm.produced, hm.code⟩

end Machine

def textAccord (ω : Type) (env : Env) : Accord ω (Measured ω) where
  toTerms := .same env False
  rel := fun _ m m' => m = m'.unmeasured ∧ m'.Bounded
  kind := Machine.kind
  form := fun _ => Form.Short
  le := fun m m' => m.bound ≤ m'.bound
  le_refl := fun _ => le_rfl
  le_trans := Nat.le_trans
  kind_mono := fun {_ _ v} hle hv => by
    cases v with
    | text s => exact Nat.le_trans hv hle
    | _ => trivial
  heap_eq := fun h => by rw [h.1]; rfl
  captured_eq := fun h => by rw [h.1]; rfl
  all_heap := fun h => (h.2.within.all_heap rfl).1
  all_frames := fun h => (h.2.within.all_heap rfl).2
  all_scope := fun _ _ => trivial
  literal := fun hform hs _ => Nat.le_trans (hform _ hs) (Nat.le_max_left _ _)
  closure := fun h => h.2.code.functions
  pattern := fun h hp _ =>
    ⟨Nat.le_trans (h.2.code.patterns hp).1 (Nat.le_max_left _ _), Nat.le_trans (h.2.code.patterns hp).2 (Nat.le_max_left _ _)⟩
  make_cell := by
    rintro _ _ m' r ⟨rfl, hm⟩ hmade
    have ⟨hm', hv⟩ := hm.make_cell hmade
    exact ⟨⟨rfl, hm'⟩, le_rfl, hv⟩
  free := False.elim
  add_warning := by
    rintro _ _ m' s - ⟨rfl, hm⟩
    exact ⟨⟨rfl, hm.within.mono le_rfl rfl rfl, hm.produced, hm.code⟩, le_rfl⟩

section Accord

variable {α : Type} {env : Env} {n : Nat} {w : Machine (Measured ω)} {args : List Value}

lemma textAccord_runs : (textAccord ω env).Runs := by
  refine ⟨?_, ?_, ?_, ?_, ?_⟩
  · rintro _ _ m' ⟨rfl, hm⟩
    rfl
  · rintro _ _ m' x ⟨rfl, hm⟩
    exact ⟨⟨rfl, hm.within.mono le_rfl rfl rfl, hm.produced, hm.code⟩, le_rfl⟩
  · rintro _ _ m' v name ⟨rfl, hm⟩ hv
    exact ⟨⟨rfl, hm.with_frames (Kind.all_assignLocal (k := m'.kind) hm.within.frames name hv)⟩, le_rfl⟩
  · rintro _ _ m' f ⟨rfl, hm⟩ hf
    exact ⟨⟨rfl, hm.with_frames (Kind.all_cons.2 ⟨hf, hm.within.frames⟩)⟩, le_rfl⟩
  · rintro _ _ m' ⟨rfl, hm⟩
    exact ⟨⟨rfl, hm.with_frames fun f hf => hm.within.frames f (mem_of_mem_tail hf)⟩, le_rfl⟩

lemma textAccord_writes : (textAccord ω env).Writes := by
  constructor
  · rintro _ _ m' f ref ⟨rfl, hm⟩ hf
    refine ⟨⟨rfl, ⟨fun other v hv => ?_, hm.within.objects, hm.within.captures, hm.within.frames⟩, hm.produced, hm.code.functions,
      hm.code.patterns⟩, le_rfl⟩
    obtain he | he := array_modifyArray_or m'.heap ref f other
    · exact hf v (he ▸ hv)
    · exact hm.within.arrays other v (he ▸ hv)
  · rintro _ _ m' ref f ⟨rfl, hm⟩ - hf
    refine ⟨⟨rfl, ⟨hm.within.arrays, fun other v hv => ?_, hm.within.captures, hm.within.frames⟩, hm.produced, hm.code.functions,
      hm.code.patterns⟩, le_rfl⟩
    obtain he | he := object_modifyObject_or m'.heap ref f other
    · exact hf v (he ▸ hv)
    · exact hm.within.objects other v (he ▸ hv)

lemma abreast_measure {texts : List String} {x : ScriptM ω α} {y : ScriptM (Measured ω) α} {Q : Machine (Measured ω) → α → Prop}
    (h : ∀ w', w.bound ≤ w'.bound → (∀ s ∈ texts, s.length ≤ w'.bound) → (textAccord ω env).AbreastTo n w' Q x y) :
    (textAccord ω env).AbreastTo n w Q x (do measure texts; y) := by
  refine ⟨fun m m' hr hle => ?_, fun _ _ hlax => hlax.elim⟩
  obtain ⟨rfl, hm⟩ := hr
  let measured : Machine (Measured ω) :=
    { m' with host := (m'.host.1, { m'.host.2 with unlimited := max m'.host.2.unlimited ((texts.map String.length).max?.getD 0) }) }
  have hle' : m'.bound ≤ measured.bound := by
    simp only [Machine.bound, measured]
    omega
  have htexts : ∀ s ∈ texts, s.length ≤ measured.bound := by
    intro s hs
    have := le_max?_getD_of_mem (k := 0) (mem_map_of_mem (f := String.length) hs)
    simp only [Machine.bound, measured]
    omega
  have hmeasured := h measured (Nat.le_trans hle hle') htexts
  exact (hmeasured.agrees _ measured ⟨rfl, hm.within.mono hle' rfl rfl, Nat.le_trans hm.produced hle', hm.code⟩
    le_rfl).rebase (Nat.le_trans hle hle')

lemma abreast_measuring {x : ScriptM ω Value} {y : ScriptM (Measured ω) Value}
    (h : (textAccord ω env).AbreastTo n w ((textAccord ω env).UpTo false) x y) :
    (textAccord ω env).Abreast n w x (measuring y) := by
  have hbind : (textAccord ω env).Abreast n w (x >>= fun v => pure v) (measuring y) := by
    refine .bindTo h False.elim fun w' v _ hv => ?_
    obtain hv | ⟨-, s, rfl⟩ := hv
    · cases v with
      | text s => exact abreast_measure fun _ hle _ => .pure (Accord.mono (A := textAccord ω env) hle hv)
      | _ => exact .pure hv
    · exact abreast_measure fun _ _ hs => .pure (hs s (.head _))
  simpa using hbind

lemma abreast_recording {x : ScriptM ω Value} {y : ScriptM (Measured ω) Value} (h : (textAccord ω env).Abreast n w x y) :
    (textAccord ω env).Abreast n w x (recording y) := by
  have hbind : (textAccord ω env).Abreast n w (x >>= fun v => pure v) (recording y) := by
    refine .bind h fun w' v _ hv => ?_
    cases v with
    | text s =>
      refine .of_ok (fun _ => rfl) fun m m' hr hle => ⟨_, _, _, rfl, rfl, ?_, le_rfl, Nat.le_trans hv hle⟩
      obtain ⟨rfl, hm⟩ := hr
      exact ⟨rfl, hm.within.mono le_rfl rfl rfl, Nat.max_le.2 ⟨hm.produced, Nat.le_trans hv hle⟩, hm.code⟩
    | _ => exact .pure hv
  simpa using hbind

lemma abreast_measuredVisit {form : Form} {x : ScriptM ω Value} {y : ScriptM (Measured ω) Value}
    (h : (textAccord ω env).AbreastTo n w ((textAccord ω env).UpTo form.limited) x y) :
    (textAccord ω env).Abreast n w (asIs form x) (measuredVisit form y) := by
  refine abreast_recording ?_
  split
  · rename_i hlimited
    exact .known (.inr hlimited) h
  · rename_i hlimited
    rw [Bool.not_eq_true] at hlimited
    exact abreast_measuring (hlimited ▸ h)

section Plain

variable {plain : Value → List Value → ScriptM ω Value} {plain' : Value → List Value → ScriptM (Measured ω) Value}
  (hplain : ∀ {w : Machine (Measured ω)} {f : Value} {args : List Value}, w.kind.All args →
    (textAccord ω env).Abreast n w (plain f args) (plain' f args))
include hplain

lemma abreast_measuredMethod (name : String) {recv : Value} (hrecv : w.kind.All recv) (hargs : w.kind.All args) :
    (textAccord ω env).Abreast n w (callMethod env plain name recv args) (measuredMethod env plain' name recv args) := by
  have hmethod (hexec : ∀ ref, recv = .pattern ref → PatternMethod.ofName? name ≠ some .exec) :
      (textAccord ω env).AbreastTo n w ((textAccord ω env).UpTo (recv.limits name))
        (callMethod env plain name recv args) (callMethod env plain' name recv args) :=
    .callMethod hplain name (.inl textAccord_writes) (.inr hexec) hrecv hargs
  unfold measuredMethod
  split
  · rename_i ref hname
    unfold callMethod
    dsimp only
    rw [hname]
    refine .bind .heap fun _ h _ _ => ?_
    cases h.pattern? ref with
    | some p => exact .bind (.argText args 0) fun _ s _ _ => abreast_measure fun _ _ hs => .firstMatch p (hs s (.head _))
    | none => exact .refuse _
  · rename_i hexec
    have hmethod := hmethod hexec
    split
    · rename_i hlimits
      exact .known (.inr hlimits) hmethod
    · rename_i hlimits
      rw [Bool.not_eq_true] at hlimits
      rw [hlimits] at hmethod
      exact abreast_measuring hmethod

lemma abreast_measuredCall (f : Value) {recv : Option Value} (hrecv : w.kind.All recv) (hargs : w.kind.All args) :
    (textAccord ω env).Abreast n w (callWith env plain f recv args) (measuredCall env plain' f recv args) := by
  unfold callWith measuredCall
  cases f with
  | function ref =>
    cases recv with
    | none => exact hplain hargs
    | some r =>
      refine .bind .heap fun _ h hle _ => ?_
      have hargs := Accord.mono (A := textAccord ω env) hle hargs
      rcases h.function? ref with _ | f
      · exact hplain hargs
      · cases f with
        | method name =>
          exact abreast_measuredMethod hplain name (Accord.mono (A := textAccord ω env) hle (Kind.all_some.1 hrecv)) hargs
        | _ => exact hplain hargs
  | _ => exact hplain hargs

end Plain

lemma abreast_measuredPairs {fields : List (String × Value)} (hfields : w.kind.All fields) :
    (textAccord ω env).Abreast n w (do newList (← pairs fields)) (measuredPairs fields) := by
  refine abreast_measure fun w' hle hnames => ?_
  have hfields := Accord.mono (A := textAccord ω env) hle hfields
  exact .bind (.pairs hfields fun e he => hnames e.1 (mem_map_of_mem he)) fun _ _ _ => .newList

lemma abreast_measuredLibrary (b : Builtin) (hargs : w.kind.All args) :
    (textAccord ω env).Abreast n w (callBuiltin b args) (measuredLibrary b args) := by
  have hrest : b.limited = true → (textAccord ω env).Abreast n w (callBuiltin b args) (callBuiltin b args) := fun hb =>
    .callBuiltin textAccord_runs (.inr hb) fun _ => ⟨textAccord_writes, hargs, fun _ _ hmarked => hmarked.1⟩
  cases b with
  | keys =>
    refine .bind .heap fun _ h _ _ => abreast_measure fun w' _ hnames => ?_
    rw [map_map]
    exact .newList (Kind.all_map_text fun e he => hnames e.1 (mem_map_of_mem he))
  | entries => exact .bind .heap fun _ h _ hh => abreast_measuredPairs (Kind.all_fieldsOf hh _)
  | arrayFrom =>
    unfold measuredLibrary callBuiltin
    dsimp only
    cases arg args 0 with
    | object ref => exact .bind .heap fun _ h _ hh => abreast_measuredPairs (Kind.all_entries (Kind.all_object hh ref))
    | _ => exact .bind (.iterate _) fun _ _ _ => .newList
  | jsonParse =>
    refine .bind (.display _) fun _ s _ _ => abreast_measure fun w' _ htexts => .parseJson fun json hjson t ht => ?_
    rw [hjson] at htexts
    exact htexts t ht
  | toText => exact abreast_measuring (.bind (.argText args 0) fun _ s _ _ => .pure_text s)
  | jsonStringify => exact abreast_measuring (.stringify args)
  | _ => exact hrest rfl

def Measures (env : Env) (invoke : Invoker ω) (invoke' : Invoker (Measured ω)) : Prop :=
  ∀ n (w : Machine (Measured ω)) id name args, w.kind.All args →
    (textAccord ω env).Abreast n w (invoke id name args) (invoke' id name args)

variable {invoke : Invoker ω} {invoke' : Invoker (Measured ω)}

lemma abreast_measuredSource (hinvoke : Measures env invoke invoke') {code : String} (hcode : code.length ≤ maxTextLength) :
    (textAccord ω env).Abreast n w (evalSource env invoke code) (measuredSource env invoke' code) := by
  unfold evalSource measuredSource
  cases hparse : Expr.parse code.toList with
  | error e => exact .throwTo fun _ _ => trivial
  | ok e =>
    have hshort : e.Each (textAccord ω env).form false := fun inside form hform s hs =>
      Nat.le_trans (((parse_gives _).1 _ hparse).short inside form hform s hs) (by rwa [String.length_toList])
    refine .evalWith abreast_measuredVisit (fun _ _ => .writePlace textAccord_runs textAccord_writes _)
      (fun _ _ => abreast_measuredCall ?_ _) e ⟨hshort, fun _ _ => trivial⟩
    refine fun hargs => .callBy (abreast_measuredLibrary _) (hinvoke _ _ _ _ _) ?_ hargs
    exact .closures (abreast_measuredLibrary _) (hinvoke _ _ _ _ _) (fun _ _ _ _ => rfl) (fun _ _ _ _ _ => rfl) textAccord_runs
      abreast_measuredVisit (.writePlace textAccord_runs textAccord_writes _) (fun hplain => abreast_measuredCall hplain _) (.inl rfl)

end Accord

/-- Evaluation comes to what measured evaluation comes to. No text that a part of the expression
comes to, none that is left in a cell and no result exceeds the limit, or any greater length that
the texts made without a check keep to. -/
theorem texts_bounded_by_unlimited (env : Env) {invoke : Invoker ω} {invoke' : Invoker (Measured ω)}
    (hinvoke : Measures env invoke invoke') {code : String} (hcode : code.length ≤ maxTextLength) {m : Machine ω}
    (hm : m.Within maxTextLength) (hshort : m.heap.ShortCode) : let result := evalSource env invoke code m
    let measured := ending (measuredSource env invoke' code m.measured)
    ending result = measured.unmeasured ∧ ∀ limit, maxTextLength ≤ limit → measured.host.2.unlimited ≤ limit →
      measured.host.2.produced ≤ limit ∧ (ending result).Within limit ∧ ∀ v m', result = .ok v m' → v.Within limit := by
  have hbounded : m.measured.Bounded := ⟨hm.mono (Nat.le_max_left _ _) rfl rfl, Nat.zero_le _, hshort.functions, hshort.patterns⟩
  have hagrees := (abreast_measuredSource hinvoke hcode (n := 0) (w := m.measured)).agrees m m.measured ⟨rfl, hbounded⟩
    le_rfl
  generalize evalSource env invoke code m = result, measuredSource env invoke' code m.measured = measured at hagrees ⊢
  have hlimit {m' : Machine (Measured ω)} {limit : Nat} (hlimit : maxTextLength ≤ limit) (hmeasured : m'.host.2.unlimited ≤ limit) :
      m'.bound ≤ limit := Nat.max_le.2 ⟨hlimit, hmeasured⟩
  cases hagrees with
  | @ok v _ m' hr _ hv =>
    obtain ⟨rfl, hm'⟩ := hr
    refine ⟨rfl, fun limit hle hmeasured => ⟨Nat.le_trans hm'.produced (hlimit hle hmeasured),
      hm'.within.mono (hlimit hle hmeasured) rfl rfl, ?_⟩⟩
    rintro _ _ ⟨⟩
    cases v with
    | text s => exact Nat.le_trans hv (hlimit hle hmeasured)
    | _ => trivial
  | @error e _ m' hr _ =>
    obtain ⟨rfl, hm'⟩ := hr
    exact ⟨rfl, fun limit hle hmeasured => ⟨Nat.le_trans hm'.produced (hlimit hle hmeasured),
      hm'.within.mono (hlimit hle hmeasured) rfl rfl, nofun⟩⟩
  | off hlax => exact hlax.elim

def Machine.named (s : String) : Machine Unit :=
  { heap := { objects := #[.ofList [("name", .text s)], .empty, .empty] }, host := () }

lemma Machine.within_named {s : String} {limit : Nat} (hs : s.length ≤ limit) : (named s).Within limit := by
  refine ⟨by simp [named, array], fun ref v hv => ?_, by simp [named, function?], by simp [named]⟩
  rcases ref with _ | _ | _ | ref
  · obtain rfl : v = .text s := mem_singleton.1 hv
    exact hs
  · cases hv
  · cases hv
  · cases hv

lemma Machine.shortCode_named (s : String) : (named s).heap.ShortCode := by
  constructor <;> simp [named, function?, pattern?]

/-- A name that is put together with itself without a check, and again with one. -/
theorem name_texts_bounded : let env : Env := { story := 0, temp := 1, constants := 2 }
    let code := "story.name.concat(story.name) + story.name"
    let m := Machine.named "ab"
    let measured := ending (measuredSource env noInvoker code m.measured)
    code.length ≤ maxTextLength ∧ m.Within maxTextLength ∧ m.heap.ShortCode ∧ measured.host.2.unlimited = 4 ∧
      measured.host.2.produced = 6 ∧ measured.host.2.produced ≤ maxTextLength ∧
      (ending (evalSource env noInvoker code m)).Within maxTextLength := by
  intro env code m measured
  have hcode : code.length ≤ maxTextLength := by decide +kernel
  have hm : m.Within maxTextLength := Machine.within_named (by decide +kernel)
  have hmeasured : measured.host.2.unlimited = 4 ∧ measured.host.2.produced = 6 := by decide +kernel
  have htexts := (texts_bounded_by_unlimited env (fun _ _ id name args _ => .noInvoker id name args) hcode hm
    (Machine.shortCode_named "ab")).2 maxTextLength le_rfl (by rw [hmeasured.1]; decide +kernel)
  exact ⟨hcode, hm, Machine.shortCode_named "ab", hmeasured.1, hmeasured.2, htexts.1, htexts.2.1⟩

/-- Two texts within the limit are put together to one that is not, and no failure tells of it. -/
theorem concatenation_exceeds_limit : let env : Env := { story := 0, temp := 1, constants := 2 }
    ∃ m : Machine Unit, m.Within maxTextLength ∧ m.heap.ShortCode ∧
      ∃ s m', evalSource env noInvoker "story.name.concat(story.name)" m = .ok (.text s) m' ∧
        maxTextLength < s.length := by
  intro env
  let name := String.ofList (replicate maxTextLength 'a')
  have hname : name.length = maxTextLength := by rw [String.length_ofList, length_replicate]
  refine ⟨.named name, Machine.within_named (Nat.le_of_eq hname), Machine.shortCode_named name, name ++ String.join [name], _, rfl, ?_⟩
  rw [String.join_cons, String.join_nil, String.append_empty, String.length_append, hname]
  decide +kernel

end StoryMarkup.Script
