import StoryMarkup.Proofs.Script.Library

/-! Evaluation under comparison: expressions keep machines in accord if library and macros do so. -/
namespace StoryMarkup.Script

open Kind ScriptM

def Form.writes : Form → Bool
  | .assign .. | .update .. => true
  | _ => false

def Form.limited : Form → Bool
  | .template _ => false
  | _ => true

def Form.calls : Form → Bool
  | .call .. => true
  | _ => false

def Value.limits (recv : Value) (name : String) : Bool :=
  match recv with
  | .text _ => (TextMethod.ofName? name).all TextMethod.limited
  | .array _ => (ListMethod.ofName? name).all ListMethod.limited
  | .number _ | .pattern _ => false
  | _ => true

lemma Pattern.compile_eq_ok {src flags : String} {p : Pattern}
    (h : Pattern.compile src flags = .ok p) : p.source = src ∧ p.flags = flags := by
  unfold Pattern.compile at h
  cases hletters : Pattern.literalFlags flags with
  | error e => simp [hletters, bind, Except.bind] at h
  | ok letters =>
    simp only [hletters, bind, Except.bind] at h
    split at h
    · unfold Pattern.ofTree at h
      split at h
      · cases h
        exact ⟨rfl, rfl⟩
      · cases h
    · cases h

lemma Pattern.span_compile {src flags : String} {e : ScriptError}
    (h : Pattern.compile src flags = .error e) : e.span = none := by
  unfold Pattern.compile Pattern.literalFlags at h
  split at h
  · cases h
    rfl
  · simp only [bind, Except.bind] at h
    unfold Pattern.ofTree at h
    grind [Pattern.refuse]

lemma Heap.span_binary {h : Heap} {op : BinaryOp} {a b : Value} {e : ScriptError}
    (he : h.binary op a b = .error e) : e.span = none := by
  cases op with
  | member =>
    unfold Heap.binary Heap.hasKey at he
    cases b <;> cases he <;> rfl
  | _ => cases he

lemma length_le_utf8ByteSize (s : String) : s.length ≤ s.utf8ByteSize := by
  rw [← String.length_toList, ← String.ofList_toList (s := s)]
  generalize s.toList = cs
  induction cs with
  | nil => simp
  | cons c cs ih =>
    rw [String.toList_ofList] at ih ⊢
    rw [String.ofList_cons, String.utf8ByteSize_append]
    have := c.utf8Size_pos
    simp
    omega

lemma local_eq {frames frames' : List (Bindings Value)} (h : captured frames' = captured frames)
    (name : String) : localValue? name frames' = localValue? name frames := by
  rw [← get?_captured, h, get?_captured]

variable {v f : Value} {args : List Value} {depth depth' : Nat}

namespace Accord.AbreastTo

variable {ω ω' : Type} {A : Accord ω ω'} {n : Nat} {w : Machine ω'}

lemma scopeNamed (name : String) : A.Both n w (scopeNamed name) :=
  bind_get fun _ _ _ _ hframes _ => by
    rw [local_eq hframes]
    exact ite (pure all_none) (pure (all_plain_option _))

lemma scopeOf (e : Expr) : A.Both n w (scopeOf e) := by
  unfold Script.scopeOf
  cases e.form with
  | ident name => exact scopeNamed name
  | _ => exact pure all_none

lemma identifier (name : String) :
    A.Abreast n w (identifier A.left name : ScriptM ω Value) (identifier A.right name : ScriptM ω' Value) := by
  refine bind_get fun _ m _ _ hframes hm => ?_
  rw [local_eq hframes]
  cases hv : localValue? name m.frames with
  | some v => exact pure (all_get? hm name v ((get?_captured name _).trans hv))
  | none =>
    dsimp only
    cases Scope.ofRoot? name with
    | some scope =>
      dsimp only
      rw [A.scope_eq]
      exact of_ok (fun _ => rfl) fun m m' hr _ => ⟨_, m, m', rfl, rfl, hr, A.le_refl _, A.all_scope scope hr⟩
    | none =>
      dsimp only
      split
      · exact pure (all_number _)
      · exact pure (all_number _)
      · refine bind (global? name) fun _ found _ hfound => ?_
        cases found with
        | some v => exact pure (hfound v rfl)
        | none => exact throw _

lemma isKnown (name : String) : A.Both n w (isKnown name) :=
  bind_get fun _ _ _ _ hframes _ => by
    rw [local_eq hframes]
    exact pure trivial

lemma binaryChecked (op : BinaryOp) (a b : Value) : A.Both n w (binaryChecked op a b) := by
  have hbinary : ∀ (h : Heap) (k : Kind) (v : Value), h.binary op a b = .ok v → k.All v ∨ ∃ s, v = .text s := by
    intro h k v hv
    cases op with
    | add =>
      cases hv
      unfold Heap.add
      split
      · exact .inr ⟨_, rfl⟩
      · exact .inl (all_number _)
    | lt | ltEq | gt | gtEq =>
      cases hv
      unfold Heap.compare
      split <;> exact .inl (all_bool _)
    | member =>
      unfold Heap.binary at hv
      cases hkey : h.hasKey a b <;> rw [hkey] at hv <;> cases hv
      exact .inl (all_bool _)
    | _ =>
      cases hv
      exact .inl (k.atom rfl)
  refine bind heap fun w' h _ _ => ?_
  cases hv : h.binary op a b with
  | error e => exact throwTo (tells_of_none (Heap.span_binary hv))
  | ok v =>
    simp only [ScriptM.lift, pure_bind]
    cases v with
    | text s =>
      by_cases hlong : s.utf8ByteSize > maxTextLength
      · simp only [if_pos hlong]
        exact checkTextLength fun hlength => pure ((A.kind w').short hlength)
      · simp only [if_neg hlong]
        exact pure ((A.kind w').short (Nat.le_trans (length_le_utf8ByteSize s) (by omega)))
    | _ =>
      obtain hknown | ⟨s, hs⟩ := hbinary h (A.kind w') _ hv
      · exact pure hknown
      · cases hs

lemma readPlace (place : Place) :
    A.Abreast n w (readPlace A.left place : ScriptM ω Value) (readPlace A.right place : ScriptM ω' Value) := by
  have hstory : A.right.story = A.left.story := A.scope_eq .story
  have htemp : A.right.temp = A.left.temp := A.scope_eq .temp
  unfold Script.readPlace
  rw [hstory, htemp]
  split
  · refine bind_get fun _ _ _ _ hframes hm => ?_
    rw [local_eq hframes, ← get?_captured]
    exact pure (all_getD (all_get? hm _))
  · exact ite (scopeValue .story _) (ite (scopeValue .temp _) (getProperty _ _))
  · exact getProperty _ _

lemma writeParam (hruns : A.Runs) (name : String) (hv : (A.kind w).All v) :
    A.Abreast n w (writePlace A.left (.param name) v : ScriptM ω Unit)
      (writePlace A.right (.param name) v : ScriptM ω' Unit) :=
  of_ok (fun _ => rfl) fun _ _ hr hle =>
    have ⟨hr', hle'⟩ := hruns.assign_local name hr (mono hle hv)
    ⟨(), _, _, rfl, rfl, hr', hle', trivial⟩

lemma writePlace (hruns : A.Runs) (hwrites : A.Writes) (place : Place) (hv : (A.kind w).All v) :
    A.Abreast n w (writePlace A.left place v : ScriptM ω Unit) (writePlace A.right place v : ScriptM ω' Unit) := by
  cases place with
  | param name => exact writeParam hruns name hv
  | property target key => exact setProperty hwrites target key hv

lemma namePlace (name : String) : A.Both n w (namePlace name) :=
  bind_get fun _ _ _ _ hframes _ => by
    rw [local_eq hframes]
    exact ite (pure trivial) (ite (throw _) (throw _))

lemma propertyUnless (optional : Bool) (target key : Value) : A.Both n w (propertyUnless optional target key) :=
  ite (pure all_undefined) (getProperty target key)

section Calls

variable {inside : Bool}
  {visit : Form → ScriptM ω Value → ScriptM ω Value} {visit' : Form → ScriptM ω' Value → ScriptM ω' Value}
  {write : Place → Value → ScriptM ω Unit} {write' : Place → Value → ScriptM ω' Unit}
  {call : Value → Option Value → List Value → ScriptM ω Value}
  {call' : Value → Option Value → List Value → ScriptM ω' Value}
  (hvisit : ∀ {form} {w : Machine ω'} {x y}, A.AbreastTo n w (A.UpTo form.limited) x y →
    A.Abreast n w (visit form x) (visit' form y))
  (hwrite : ∀ {form}, A.form inside form → form.writes = true → ∀ {w : Machine ω'} {place : Place}
    {v : Value}, (A.kind w).All v → A.Abreast n w (write place v) (write' place v))
  (hcall : ∀ {form}, A.form inside form → form.calls = true → ∀ {w : Machine ω'} {f : Value}
    {recv : Option Value} {args : List Value}, (A.kind w).All recv → (A.kind w).All args →
    A.Abreast n w (call f recv args) (call' f recv args))
include hvisit hwrite hcall

set_option linter.unusedSectionVars false in
mutual

theorem evalWith : ∀ (e : Expr) {w : Machine ω'}, A.Allows inside e →
    A.Abreast n w (evalWith A.left visit write call e) (evalWith A.right visit' write' call' e)
  | .mk span form, _, he => by
    rw [Script.evalWith, Script.evalWith]
    refine locating (allows_mk.1 he).1 (hvisit ?_)
    cases form with
    | template parts =>
      unfold Script.evalForm
      exact bind (evalSegments parts fun e hpart => he.part (List.mem_map_of_mem hpart)) fun _ s _ _ => pure_text s
    | _ => exact upTo (evalForm _ rfl (allows_mk.1 he).2.1 (allows_mk.1 he).2.2) true

theorem evalForm : ∀ (form : Form) {w : Machine ω'}, form.limited = true → A.form inside form →
    (∀ part ∈ form.parts, A.Allows (form.isArrow || inside) part.2) →
    A.Abreast n w (evalForm A.left visit write call form) (evalForm A.right visit' write' call' form)
  | .undefined, _, _, _, _ | .null, _, _, _, _ | .bool _, _, _, _, _ | .number _, _, _, _,
      _ | .spread _, _, _, _, _ => by
    simp [Script.evalForm]
  | .string s, w, _, hform, _ => by
    unfold Script.evalForm
    exact pure (A.literal hform (by simp [Form.literals]) w)
  | .template _, _, hlimited, _, _ => nomatch hlimited
  | .pattern src flags, _, _, hform, _ => by
    unfold Script.evalForm
    cases hp : Pattern.compile src flags with
    | error e => exact throwTo (tells_of_none (Pattern.span_compile hp))
    | ok p =>
      obtain ⟨rfl, rfl⟩ := Pattern.compile_eq_ok hp
      exact allocate fun _ _ _ => .pattern (A.literal hform (by simp [Form.literals]))
        (A.literal hform (by simp [Form.literals]))
  | .array items, _, _, _, hparts => by
    unfold Script.evalForm
    exact bind (evalItems items fun e he => hparts _ (List.mem_map_of_mem he)) fun _ _ _ => newList
  | .object fields, _, _, _, hparts => by
    unfold Script.evalForm
    exact bind (evalFields fields fun e he => hparts (true,
      e) (List.mem_map_of_mem he)) fun _ _ _ hes => newObject (all_ofList hes)
  | .ident name, _, _, _, _ => by
    unfold Script.evalForm
    exact identifier name
  | .member target property optional, _, _, _, hparts => by
    unfold Script.evalForm
    refine bind (scopeOf target) fun _ found _ _ => ?_
    cases found with
    | some scope => exact scopeValue scope property
    | none => exact bind (evalWith target (hparts _ (.head _))) fun _ v _ _ => propertyUnless optional v _
  | .index target key optional, _, _, _, hparts => by
    unfold Script.evalForm
    refine bind (evalWith key (hparts _ (.tail _ (.head _)))) fun _ k _ _ => bind (scopeOf target) fun _ found _ _ => ?_
    split
    · exact scopeValue _ _
    · exact bind (evalWith target (hparts _ (.head _))) fun _ v _ _ => propertyUnless optional v k
  | .call callee args optional, _, _, hform, hparts => by
    unfold Script.evalForm
    refine bind (evalCallee callee (hparts _ (.head _))) fun _ (f, recv) _ hf => ite (pure all_undefined) ?_
    refine bind (evalItems args fun e he => hparts _ (.tail _ (List.mem_map_of_mem he))) fun _ vs hle hvs => ?_
    have hrecv := (mono hle hf).2
    split
    · exact hcall hform rfl hrecv hvs
    · exact hcall hform rfl hrecv hvs
    · exact refuse _
  | .unary op operand, _, _, _, hparts => by
    have hunary : ∀ (h : Heap) (w : Machine ω') (v : Value), (A.kind w).All (h.unary op v) := by
      intro h w v
      cases op with
      | typeOf => exact (A.kind w).short (by unfold Value.typeName; split <;> decide)
      | _ => exact (A.kind w).atom rfl
    have hvalue {w : Machine ω'} := evalWith operand (w := w) (hparts _ (.head _))
    unfold Script.evalForm
    split
    · refine bind (isKnown _) fun w' _ _ _ => ite ?_ (pure ((A.kind w').short (by decide)))
      exact bind heap fun _ _ _ _ => bind hvalue fun _ v _ _ => pure (hunary _ _ v)
    · exact bind hvalue fun _ v _ _ => bind heap fun _ _ _ _ => pure (hunary _ _ v)
  | .update increment before target, _, _, hform, hparts => by
    unfold Script.evalForm
    exact bind (evalPlace target (hparts _ (.head _))) fun _ place _ _ => bind (readPlace place) fun _ v _ _ =>
      bind (toNumber v) fun _ _ _ _ => bind (hwrite hform rfl (all_number _)) fun _ _ _ _ => pure (all_number _)
  | .binary op left right, _, _, _, hparts => by
    unfold Script.evalForm
    exact bind (evalWith left (hparts _ (.head _))) fun _ a _ _ =>
      bind (evalWith right (hparts _ (.tail _ (.head _)))) fun _ b _ _ => binaryChecked op a b
  | .logical op left right, _, _, _, hparts => by
    unfold Script.evalForm
    exact bind (evalWith left (hparts _ (.head _))) fun _ _ _ ha => ite (pure ha)
      (evalWith right (hparts _ (.tail _ (.head _))))
  | .conditional test yes no, _, _, _, hparts => by
    unfold Script.evalForm
    exact bind (evalWith test (hparts _ (.head _))) fun _ _ _ _ => ite (evalWith yes (hparts _ (.tail _ (.head _))))
      (evalWith no (hparts _ (.tail _ (.tail _ (.head _)))))
  | .assign op target value, _, _, hform, hparts => by
    unfold Script.evalForm
    refine bind (evalPlace target (hparts _ (.head _))) fun _ place _ _ => ?_
    have hvalue {w : Machine ω'} := evalWith value (w := w) (hparts _ (.tail _ (.head _)))
    have hstore {w : Machine ω'} {v : Value} (hv : (A.kind w).All v) :
        A.Abreast n w (do write place v; return v) (do write' place v; return v) :=
      bind (hwrite hform rfl hv) fun _ _ hle _ => pure (mono hle hv)
    rcases op with _ | op
    · exact bind hvalue fun _ _ _ => hstore
    · cases op with
      | arith bin =>
        exact bind (readPlace place) fun _ current _ _ => bind hvalue fun _ v _ _ =>
          bind (binaryChecked bin current v) fun _ _ _ => hstore
      | logical logical =>
        exact bind (readPlace place) fun _ _ _ hcurrent => ite (pure hcurrent) (bind hvalue fun _ _ _ => hstore)
  | .arrow params body, _, _, _, hparts => by
    unfold Script.evalForm
    refine bind_get fun _ _ _ _ hframes hm => ?_
    rw [hframes]
    exact allocate fun _ _ hle => .closure (mono hle hm) (hparts _ (.head _))

theorem evalCallee : ∀ (e : Expr) {w : Machine ω'}, A.Allows inside e →
    A.Abreast n w (evalCallee A.left visit write call e) (evalCallee A.right visit' write' call' e)
  | .mk span form, _, he => by
    cases form with
    | member target property optional =>
      unfold Script.evalCallee
      refine bind (scopeOf target) fun _ found _ _ => ?_
      cases found with
      | some scope =>
        exact bind (locating (allows_mk.1 he).1 (scopeValue scope property)) fun _ _ _ hf => pure ⟨hf, all_none⟩
      | none =>
        exact bind (evalWith target (he.part (.head _))) fun _ r _ hr =>
          bind (propertyUnless optional r _) fun _ _ hle hf =>
          pure ⟨hf, all_some.2 (mono hle hr)⟩
    | index target key optional =>
      unfold Script.evalCallee
      refine bind (scopeOf target) fun _ found _ _ => ?_
      cases found with
      | some scope =>
        refine bind (locating (allows_mk.1 he).1 (bind (evalWith key (he.part (.tail _ (.head _))))
          fun _ k _ _ => ?_)) fun _ _ _ hf => pure ⟨hf, all_none⟩
        split
        · exact scopeValue scope _
        · exact bind (evalWith target (he.part (.head _))) fun _ v _ _ => propertyUnless optional v _
      | none =>
        exact bind (evalWith target (he.part (.head _))) fun _ r _ hr =>
          bind (evalWith key (he.part (.tail _ (.head _)))) fun _ k hle _ =>
          bind (propertyUnless optional r k) fun _ _ hle' hf => pure ⟨hf, all_some.2 (mono (A.le_trans hle hle') hr)⟩
    | template parts =>
      rw [Script.evalCallee, Script.evalForm, Script.evalCallee, Script.evalForm]
      · refine bind (locating (allows_mk.1 he).1 (hvisit ?_)) fun _ _ _ hf => pure ⟨hf, all_none⟩
        exact bind (evalSegments parts fun e hpart => he.part (List.mem_map_of_mem hpart)) fun _ s _ _ => pure_text s
      all_goals simp
    | _ =>
      unfold Script.evalCallee
      · refine bind (locating (allows_mk.1 he).1 (hvisit ?_)) fun _ _ _ hf => pure ⟨hf, all_none⟩
        exact upTo (evalForm _ rfl (allows_mk.1 he).2.1 (allows_mk.1 he).2.2) true

theorem evalPlace : ∀ (e : Expr) {w : Machine ω'}, A.Allows inside e →
    A.Abreast n w (evalPlace A.left visit write call e) (evalPlace A.right visit' write' call' e)
  | .mk span form, _, he => by
    cases form with
    | ident name =>
      unfold Script.evalPlace
      exact namePlace name
    | member target property optional =>
      unfold Script.evalPlace
      exact bind (scopeOf target) fun _ found _ _ => ite (throw _)
        (bind (evalWith target (he.part (.head _))) fun _ _ _ _ => pure trivial)
    | index target key optional =>
      unfold Script.evalPlace
      exact bind (evalWith target (he.part (.head _))) fun _ t _ _ =>
        bind (evalWith key (he.part (.tail _ (.head _)))) fun _ k _ _ => pure trivial
    | _ => simp [Script.evalPlace]

theorem evalItems : ∀ (es : List Expr) {w : Machine ω'}, (∀ e ∈ es, A.Allows inside e) →
    A.Abreast n w (evalItems A.left visit write call es) (evalItems A.right visit' write' call' es)
  | [], _, _ => by simp [Script.evalItems]
  | .mk span form :: rest, _, hes => by
    have hrest : ∀ e ∈ rest, A.Allows inside e := fun e he => hes e (.tail _ he)
    cases form with
    | spread inner =>
      unfold Script.evalItems
      exact bind (evalWith inner ((hes _ (.head _)).part (.head _))) fun _ v _ _ =>
        bind (locating (allows_mk.1 (hes _ (.head _))).1 (iterate v)) fun _ items _ hitems =>
        bind (evalItems rest hrest) fun _ _ hle hvs => pure (all_append.2 ⟨mono hle hitems, hvs⟩)
    | _ =>
      unfold Script.evalItems
      · exact bind (evalWith _ (hes _ (.head _))) fun _ v _ hv => bind (evalItems rest hrest) fun _ _ hle hvs =>
          pure (all_cons.2 ⟨mono hle hv, hvs⟩)

theorem evalFields : ∀ (fields : List Field) {w : Machine ω'}, (∀ e ∈ fields.flatMap Field.values, A.Allows inside e) →
    A.Abreast n w (evalFields A.left visit write call fields) (evalFields A.right visit' write' call' fields)
  | [], _, _ => by simp [Script.evalFields]
  | .named key value :: rest, _, hes => by
    unfold Script.evalFields
    exact bind (evalWith value (hes _ (.head _))) fun _ _ _ hv => bind (evalFields rest fun e he =>
      hes e (.tail _ he)) fun _ _ hle hvs => pure (all_cons.2 ⟨⟨trivial, mono hle hv⟩, hvs⟩)
  | .computed key value :: rest, _, hes => by
    unfold Script.evalFields
    exact bind (evalWith key (hes _ (.head _))) fun _ k _ _ => bind (display k) fun _ _ _ _ =>
      bind (evalWith value (hes _ (.tail _ (.head _)))) fun _ _ _ hv =>
        bind (evalFields rest fun e he => hes e (.tail _ (.tail _ he)))
        fun _ _ hle hvs => pure (all_cons.2 ⟨⟨trivial, mono hle hv⟩, hvs⟩)

theorem evalSegments : ∀ (parts : List Segment) {w : Machine ω'},
    (∀ e ∈ parts.filterMap Segment.hole?, A.Allows inside e) →
    A.Abreast n w (evalSegments A.left visit write call parts) (evalSegments A.right visit' write' call' parts)
  | [], _, _ => by simp [Script.evalSegments]
  | .text s :: rest, _, hes => by
    unfold Script.evalSegments
    exact bind (evalSegments rest hes) fun _ _ _ _ => pure trivial
  | .hole e :: rest, _, hes => by
    unfold Script.evalSegments
    exact bind (evalWith e (hes _ (.head _))) fun _ v _ _ => bind (display v) fun _ _ _ _ =>
      bind (evalSegments rest fun e he => hes e (.tail _ he)) fun _ _ _ _ => pure trivial

end

end Calls

section Plain

variable {plain : Value → List Value → ScriptM ω Value}
    {plain' : Value → List Value → ScriptM ω' Value} {args : List Value}
  (hplain : ∀ {w : Machine ω'} {f : Value} {args : List Value}, (A.kind w).All args →
    A.Abreast n w (plain f args) (plain' f args))
include hplain

lemma callMethod (name : String) {recv : Value} (hwrites : A.Writes ∨ ∀ ref, recv ≠ .array ref)
    (hany : A.AnyText ∨ ∀ ref, recv = .pattern ref →
      PatternMethod.ofName? name ≠ some .exec) (hrecv : (A.kind w).All recv) (hargs : (A.kind w).All args) :
    A.AbreastTo n w (A.UpTo (recv.limits name)) (callMethod A.left plain name recv args)
      (callMethod A.right plain' name recv args) := by
  unfold Script.callMethod Value.limits
  cases recv with
  | text s =>
    dsimp only
    cases TextMethod.ofName? name with
    | some m => exact callTextMethod hplain hrecv m args
    | none => exact refuse _
  | array ref =>
    dsimp only
    cases ListMethod.ofName? name with
    | some m => exact callListMethod hplain (.inl (hwrites.resolve_right fun hne => hne ref rfl)) hrecv hargs
    | none => exact refuse _
  | number x =>
    dsimp only
    cases NumberMethod.ofName? name with
    | some m => exact callNumberMethod x m args
    | none => exact refuse _
  | pattern ref =>
    dsimp only
    refine bind heap fun _ h _ _ => ?_
    split
    · rename_i hname _
      exact callPatternMethod _ (hany.imp_right fun hne he => hne ref rfl (he ▸ hname)) args
    · exact refuse _
  | object ref =>
    dsimp only
    rcases ObjectMethod.ofName? name with _ | m
    · exact refuse _
    · cases m with
      | hasOwnProperty => exact upTo (by simp) true
      | toString => exact upTo (bind heap fun w' _ _ _ => pure ((A.kind w').short (by decide))) true
  | _ => exact refuse _

lemma callWith (hwrites : A.Writes) (hany : A.AnyText) (f : Value) {recv : Option Value}
    (hrecv : (A.kind w).All recv) (hargs : (A.kind w).All args) :
    A.Abreast n w (callWith A.left plain f recv args) (callWith A.right plain' f recv args) := by
  unfold Script.callWith
  split
  · refine bind heap fun _ h hle _ => ?_
    have hargs := mono hle hargs
    split
    · exact known (.inl hany) (callMethod hplain _ (.inl hwrites) (.inl hany) (mono hle (hrecv _ rfl)) hargs)
    · exact hplain hargs
  · exact hplain hargs

end Plain

section Machinery

variable {library : Library ω} {library' : Library ω'} {invoke : Invoker ω} {invoke' : Invoker ω'}
  (hlibrary : ∀ {n} {w : Machine ω'} {b args}, (A.kind w).All args → A.Abreast n w (library b args)
  (library' b args)) (hinvoke : ∀ {n} {w : Machine ω'} {id name args}, (A.kind w).All args →
    A.Abreast n w (invoke id name args) (invoke' id name args))
include hlibrary hinvoke

lemma callBy {enter : List String → Expr → Bindings Value → List Value → ScriptM ω Value}
    {enter' : List String → Expr → Bindings Value → List Value → ScriptM ω' Value}
    (henter : ∀ {w : Machine ω'} {params body captures args}, A.Allows true body → (A.kind w).All captures →
      (A.kind w).All args → A.Abreast n w (enter params body captures args) (enter' params body captures args))
    (hargs : (A.kind w).All args) :
    A.Abreast n w (callBy library invoke enter f args) (callBy library' invoke' enter' f args) := by
  unfold Script.callBy
  cases f with
  | function ref =>
    refine bind_heap fun _ h hle hh => ?_
    have hargs := mono hle hargs
    cases hf : h.function? ref with
    | none => exact refuse _
    | some f =>
      cases f with
      | closure params body captures => exact henter (hh.closure hf) (hh.values.2.2 ref params body captures hf) hargs
      | builtin b => exact hlibrary hargs
      | method name => exact refuse _
  | macroDef id name => exact hinvoke hargs
  | _ => exact refuse _

omit hlibrary hinvoke in
lemma noInvoker (id : Nat) (name : String) (args : List Value) : A.Both n w (noInvoker id name args) := refuse _

omit hlibrary hinvoke in
lemma asIs (hany : A.AnyText) {form : Form} {x : ScriptM ω Value} {y : ScriptM ω' Value}
    (h : A.AbreastTo n w (A.UpTo form.limited) x y) : A.Abreast n w (asIs form x) (asIs form y) :=
  known (.inl hany) h

/-- Arrow functions keep machines in accord if all that is left open in their bodies does; the
second evaluation may nest them deeper if it is let off. -/
theorem closures {enter' : Nat → List String → Expr → Bindings Value → List Value → ScriptM ω' Value}
    {visit' : Form → ScriptM ω' Value → ScriptM ω' Value} {write' : Place → Value → ScriptM ω' Unit}
    {call' : (Value → List Value → ScriptM ω' Value) → Value → Option Value → List Value → ScriptM ω' Value}
    (hzero : ∀ params body captures args,
      enter' 0 params body captures args = MonadExcept.throw ⟨.callDepth A.right.maxDepth, none⟩)
    (hsucc : ∀ depth params body captures args,
      enter' (depth + 1) params body captures args =
      ScriptM.withFrame (callFrame params captures args) (Script.evalWith A.right visit' write'
        (call' (Script.callBy library' invoke' (enter' depth))) body))
    (hruns : A.Runs)
    (hvisit : ∀ {n form} {w : Machine ω'} {x y}, A.AbreastTo n w (A.UpTo form.limited) x y →
      A.Abreast n w (Script.asIs form x) (visit' form y))
    (hwrite : ∀ {n} {w : Machine ω'} {place v}, (A.kind w).All v →
      A.Abreast n w (Script.writePlace A.left place v) (write' place v))
    (hcall : ∀ {n plain plain'},
      (∀ {w : Machine ω'} {f args}, (A.kind w).All args → A.Abreast n w (plain f args) (plain' f args)) →
      ∀ {w : Machine ω'} {f recv args}, (A.kind w).All recv → (A.kind w).All args →
      A.Abreast n w (Script.callWith A.left plain f recv args) (call' plain' f recv args))
    (hdepth : depth' = depth ∨ (∀ n, A.lax n) ∧ depth ≤ depth') {params : List String} {body : Expr}
    {captures : Bindings Value} (hbody : A.Allows true body) (hcaptures : (A.kind w).All captures)
    (hargs : (A.kind w).All args) :
    A.Abreast n w (callClosure A.left library invoke depth params body captures args)
      (enter' depth' params body captures args) := by
  -- the body runs with one more frame and one call less to nest
  induction depth generalizing depth' n w params body captures args with
  | zero =>
    rcases hdepth with rfl | ⟨hlax, -⟩
    · rw [callClosure, hzero]
      rcases A.depth_eq with he | ⟨hlax, -⟩
      · rw [he]
        exact throw _
      · exact released hlax fun m => ⟨_, m, rfl⟩
    · exact released hlax fun m => ⟨_, m, rfl⟩
  | succ depth ih =>
    obtain ⟨inner, rfl, hinner⟩ : ∃ inner, depth' = inner + 1 ∧ (inner = depth ∨ (∀ n, A.lax n) ∧ depth ≤ inner) := by
      rcases hdepth with rfl | ⟨hlax, hle⟩
      · exact ⟨depth, rfl, .inl rfl⟩
      · exact ⟨depth' - 1, by omega, .inr ⟨hlax, by omega⟩⟩
    rw [callClosure, hsucc]
    exact withFrame hruns (all_callFrame hcaptures hargs params) (evalWith hvisit (fun _ _ => hwrite)
      (fun _ _ => hcall (callBy hlibrary hinvoke (ih hinner))) body hbody)

lemma callUsing (hruns : A.Runs) (hwrites : A.Writes) (hany : A.AnyText)
    (hdepth : depth' = depth ∨ (∀ n, A.lax n) ∧ depth ≤ depth') (hargs : (A.kind w).All args) :
    A.Abreast n w (callUsing A.left library invoke depth f args) (callUsing A.right library' invoke' depth' f args) :=
  callBy hlibrary hinvoke (closures hlibrary hinvoke (fun _ _ _ _ => rfl) (fun _ _ _ _ _ => rfl) hruns (asIs hany)
    (writePlace hruns hwrites _) (fun hplain => callWith hplain hwrites hany _) hdepth) hargs

end Machinery

end Accord.AbreastTo
end StoryMarkup.Script
