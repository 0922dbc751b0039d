import StoryMarkup.Proofs.Script.Evaluation
import StoryMarkup.Proofs.Script.Nesting

/-! Where errors happened: at a part of what is evaluated, or of a function that was there
before. -/
namespace StoryMarkup.Script

open Text (Span)

variable {ω : Type} {located : Span → Prop}

/-- Some part of the expression stands at the place. -/
def Expr.HasSpan (e : Expr) (s : Span) : Prop := ∃ part : Expr, part.Within e ∧ part.span = s

/-- All parts of the functions in the heap stand at given places. -/
def Heap.Located (located : Span → Prop) (h : Heap) : Prop :=
  ∀ {ref params body captures}, h.function? ref = some (.closure params body captures) → body.SpansIn located

lemma Heap.Located.newFunction {h : Heap} (hh : h.Located located) {f : Function}
    (hf : ∀ {params body captures}, f = .closure params body captures → body.SpansIn located) :
    (h.newFunction f).2.Located located := by
  intro ref params body captures hfound
  obtain hnew | hold := Heap.function?_newFunction hfound
  · exact hf hnew.symm
  · exact hh hold

def placeAccord (ω : Type) (env : Env) (located : Span → Prop) : Accord ω ω where
  toTerms := .same env False
  rel := fun _ m m' => m = m' ∧ m'.heap.Located located
  kind := fun _ => Kind.any
  form := fun _ _ => True
  located := located
  le := fun _ _ => True
  le_refl := fun _ => trivial
  le_trans := fun _ _ => trivial
  kind_mono := fun _ h => h
  heap_eq := fun h => by rw [h.1]
  captured_eq := fun h => by rw [h.1]
  all_heap := fun _ => Holding.of_forall fun _ => trivial
  all_frames := fun _ => Holding.of_forall fun _ => trivial
  all_scope := fun _ _ => trivial
  literal := fun _ _ _ => trivial
  closure := fun _ _ _ _ _ => trivial
  spans := fun h hf => h.2 hf
  pattern := fun _ _ _ => ⟨trivial, trivial⟩
  make_cell := by
    rintro _ m _ r ⟨rfl, hm⟩ hmade
    refine ⟨⟨rfl, ?_⟩, trivial, trivial⟩
    cases hmade with
    | closure _ hbody =>
      refine hm.newFunction fun he => ?_
      cases he
      exact hbody.2
    | builtin | method =>
      refine hm.newFunction fun he => ?_
      cases he
    | _ => exact hm
  free := False.elim
  free_spans := False.elim
  add_warning := fun _ _ h => ⟨⟨by rw [h.1], h.2⟩, trivial⟩

variable {env : Env}

lemma placeAccord_runs : (placeAccord ω env located).Runs :=
  ⟨fun h => by rw [h.1], fun _ h => ⟨⟨by rw [h.1], h.2⟩, trivial⟩, fun _ h _ => ⟨⟨by rw [h.1], h.2⟩, trivial⟩,
    fun h _ => ⟨⟨by rw [h.1], h.2⟩, trivial⟩, fun h => ⟨⟨by rw [h.1], h.2⟩, trivial⟩⟩

lemma placeAccord_writes : (placeAccord ω env located).Writes :=
  ⟨fun _ h _ => ⟨⟨by rw [h.1], h.1 ▸ h.2⟩, trivial⟩, fun h _ _ => ⟨⟨by rw [h.1], h.1 ▸ h.2⟩, trivial⟩⟩

/-- Macros that are called make functions and fail at given places only. -/
def Invoker.Keeps (invoke : Invoker ω) (located : Span → Prop) : Prop :=
  ∀ id name args m, m.heap.Located located → (ending (invoke id name args m)).heap.Located located ∧
    ∀ e m', invoke id name args m = .error e m' → ∀ s, e.span = some s → located s

lemma Invoker.Keeps.abreast {invoke : Invoker ω} (h : invoke.Keeps located) {n : Nat}
    {w : Machine ω} (id : Nat) (name : String) (args : List Value) :
    (placeAccord ω env located).Abreast n w (invoke id name args) (invoke id name args) := by
  refine ⟨?_, fun _ _ hlax => hlax⟩
  rintro m _ ⟨rfl, hm⟩ -
  obtain ⟨hheap, htells⟩ := h id name args m hm
  generalize invoke id name args m = r at hheap htells
  cases r with
  | ok v m' => exact .ok ⟨rfl, hheap⟩ trivial trivial
  | error e m' => exact .error ⟨rfl, hheap⟩ trivial (htells e m' rfl)

lemma abreast_eval {invoke : Invoker ω} (hinvoke : invoke.Keeps located) {e : Expr} (he : e.SpansIn located) {n : Nat}
    {w : Machine ω} : (placeAccord ω env located).Abreast n w (eval env invoke e) (eval env invoke e) := by
  have hany : (placeAccord ω env located).AnyText := fun _ _ => trivial
  have hlibrary {n w b args} (hargs : ((placeAccord ω env located).kind w).All args) :
      (placeAccord ω env located).Abreast n w (ScriptM.callBuiltin b args) (ScriptM.callBuiltin b args) :=
    .callBuiltin placeAccord_runs (.inl hany) fun _ => ⟨placeAccord_writes, hargs, fun _ _ hmarked => hmarked.1⟩
  have hplain {n w f args} (hargs : ((placeAccord ω env located).kind w).All args) :
      (placeAccord ω env located).Abreast n w (callUsing env ScriptM.callBuiltin invoke env.maxDepth
        f args) (callUsing env ScriptM.callBuiltin invoke env.maxDepth f args) :=
    .callUsing hlibrary (fun _ => hinvoke.abreast _ _ _) placeAccord_runs placeAccord_writes hany (.inl rfl) hargs
  have hallows : (placeAccord ω env located).Allows false e := ⟨fun _ _ _ => trivial, he⟩
  exact .evalWith (.asIs hany) (fun _ _ => .writePlace placeAccord_runs placeAccord_writes _)
    (fun _ _ => .callWith hplain placeAccord_writes hany _) e hallows

/-- The place is a part of the source, which an excerpt can quote. -/
def Quotable (source : List Char) (s : Span) : Prop :=
  s.start ≤ s.stop ∧ s.stop ≤ Text.byteLength source ∧ (s.extract? source).isSome

lemma quotable_of_lies {source : List Char} {s : Span} (h : Lies source s) : Quotable source s := by
  obtain ⟨hstop, text, htext, -⟩ := extract?_of_lies h
  exact ⟨h.2.2, hstop, by rw [htext]; rfl⟩

/-- The place that an error names is where the code could not be read, or the place of a part of the
code, and then it is a part of the code's text; or it is that of a part of a function that was made
before, in the text of that function; or macros that the code calls have brought it along. -/
theorem error_points_at_code_or_function (env : Env) {invoke : Invoker ω} {others : Span → Prop}
    (hinvoke : ∀ {located}, (∀ s, others s → located s) → invoke.Keeps located) {code : String}
    {m m' : Machine ω} {err : ScriptError} {s : Span}
    (h : evalSource env invoke code m = .error err m') (hs : err.span = some s) :
    (Expr.parse code.toList = .error err ∨ ∃ e, Expr.parse code.toList = .ok e ∧ e.HasSpan s) ∧
      Quotable code.toList s ∨
    (∃ ref params body captures, m.heap.function? ref = some (.closure params body captures) ∧ body.HasSpan s) ∨
    others s := by
  have ⟨hfits, hfails⟩ := parse_gives code.toList
  unfold evalSource at h
  cases hparse : Expr.parse code.toList with
  | error e =>
    rw [hparse] at h
    cases h
    exact .inl ⟨.inl rfl, quotable_of_lies (hfails err hparse s hs)⟩
  | ok e =>
    rw [hparse] at h
    let located (s : Span) : Prop := e.HasSpan s ∨
      (∃ ref params body captures, m.heap.function? ref = some (.closure params body captures) ∧
        body.HasSpan s) ∨ others s
    have hkeeps : invoke.Keeps located := hinvoke fun s hs => .inr (.inr hs)
    have hcode : e.SpansIn located := fun part hpart => .inl ⟨part, hpart, rfl⟩
    have hheap : m.heap.Located located := fun hf part hpart => .inr (.inl ⟨_, _, _, _, hf, part, hpart, rfl⟩)
    have heval : (placeAccord ω env located).Abreast 0 m (eval env invoke e) (eval env invoke e) :=
      abreast_eval hkeeps hcode
    have hagrees := heval.agrees m m ⟨rfl, hheap⟩ trivial
    change eval env invoke e m = _ at h
    rw [h] at hagrees
    cases hagrees with
    | error _ _ htells =>
      refine (htells s hs).imp_left fun hspan => ⟨.inr ⟨e, rfl, hspan⟩, ?_⟩
      obtain ⟨part, hpart, rfl⟩ := hspan
      exact quotable_of_lies ((hfits e hparse).placed part hpart).1
    | off hlax => exact hlax.elim

/-- A function that one piece of code has made fails in another one at a place of its own text. -/
theorem function_fails_where_written : let env : Env := { story := 0, temp := 1, constants := 2 }
    let start : Machine Unit := { heap := { objects := #[.empty, .empty, .empty] }, host := () }
    ∃ v m err m', evalSource env noInvoker "story.f = () => null.x" start = .ok v m ∧
      evalSource env noInvoker "story.f()" m = .error err m' ∧ err.span = some ⟨16, 22⟩ ∧
      ((Expr.parse "story.f()".toList = .error err ∨ ∃ e, Expr.parse "story.f()".toList = .ok e ∧
          e.HasSpan ⟨16, 22⟩) ∧ Quotable "story.f()".toList ⟨16, 22⟩ ∨
        (∃ ref params body captures, m.heap.function? ref = some (.closure params body captures) ∧
          body.HasSpan ⟨16, 22⟩) ∨
        False) := by
  intro env start
  have hinvoke {located : Span → Prop} (_ : ∀ s, False → located s) : (noInvoker : Invoker Unit).Keeps located := by
    refine fun id name args m hm => ⟨hm, fun e m' he s hs => ?_⟩
    cases he
    cases hs
  exact ⟨_, _, _, _, rfl, rfl, rfl, error_points_at_code_or_function env hinvoke rfl rfl⟩

/-- The place that an error names need not lie in the code that is evaluated. -/
theorem error_points_past_code : let env : Env := { story := 0, temp := 1, constants := 2 }
    let start : Machine Unit := { heap := { objects := #[.empty, .empty, .empty] }, host := () }
    ∃ v m err m', evalSource env noInvoker "story.f = () => null.x" start = .ok v m ∧
      evalSource env noInvoker "story.f()" m = .error err m' ∧
      ∃ s, err.span = some s ∧ Text.byteLength "story.f()".toList < s.start := by
  intro env start
  exact ⟨_, _, _, _, rfl, rfl, _, rfl, by decide⟩

end StoryMarkup.Script
