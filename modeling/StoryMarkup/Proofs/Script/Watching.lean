import StoryMarkup.Proofs.Script.Bond
import StoryMarkup.Proofs.Script.Cells

/-! Evaluation with the changes of cells on record, which alone can make a cell come back to
itself. -/
namespace StoryMarkup.Script

open Kind ScriptM Heap

def Heap.kind (h : Heap) : Kind where
  holds := h.Knows
  atom := fun {v} hv => by cases v <;> trivial
  short := fun _ => trivial
  part := fun _ _ => trivial

/-- What the surroundings keep, and the heaps before and after each change of a cell, the last one
first. -/
abbrev Watched (ω : Type) := ω × List (Heap × Heap)

def Machine.unwatched {ω : Type} (m : Machine (Watched ω)) : Machine ω := { m with host := m.host.1 }

variable {ω α : Type} {env : Env} {h g : Heap} {n : Nat}
variable {m w : Machine (Watched ω)} {ref : Nat} {items : Array Value} {args : List Value} {method : ListMethod}
  {v : Value}

/-- Nothing in the machine refers to a cell that is not there, and a cell comes back to itself only
by way of the changes on record. -/
structure Sound (env : Env) (m : Machine (Watched ω)) : Prop where
  closed : m.heap.Closed
  scopes : ∀ s, m.heap.Knows (.object (env.scope s))
  frames : ∀ f ∈ m.frames, ∀ v ∈ f.values, m.heap.Knows v
  noLoop : (∀ c ∈ m.host.2, ¬ c.1.Closes c.2) → m.heap.NoLoop
  noLoops_iff : (∀ c ∈ m.host.2, c.2.NoLoop) ↔ ∀ c ∈ m.host.2, ¬ c.1.Closes c.2

lemma Heap.all_mono [Holding α] {a : α} (hwider : h.Wider g) (ha : h.kind.All a) : g.kind.All a :=
  Holding.imp (fun _ hv => hv.mono hwider) ha

lemma Heap.Closed.all (hclosed : h.Closed) : h.kind.All h :=
  ⟨fun ref _ hv => hclosed.items (v := .array ref) hv, fun ref _ hv => hclosed.items
    (v := .object ref) hv, fun _ _ _ _ hf => hclosed.kept _ (Array.mem_of_getElem? hf)⟩

lemma Sound.grow (hm : Sound env m) (hgrown : m.heap.Grown g) : Sound env { m with heap := g } where
  closed := hgrown.closed hm.closed
  scopes := fun s => (hm.scopes s).mono hgrown.wider
  frames := fun f hf v hv => (hm.frames f hf v hv).mono hgrown.wider
  noLoop := fun hnone => hgrown.noLoop hm.closed (hm.noLoop hnone)
  noLoops_iff := hm.noLoops_iff

lemma Heap.grown_of_allocates {text : String → Prop} {fits : Expr → Prop} {r : Value × Heap}
    (hr : Allocates h.Knows text fits h r) : h.Grown r.2 ∧ r.2.Knows r.1 := by
  cases hr with
  | array hitems => exact ⟨grown_newArray hitems, by simp [newArray, Knows]⟩
  | object hfields => exact ⟨grown_newObject hfields, by simp [newObject, Knows]⟩
  | closure hcaptures _ => exact ⟨grown_newFunction hcaptures, trivial⟩
  | builtin b | method name => exact ⟨grown_newFunction (by simp [Function.kept]), trivial⟩
  | pattern _ _ => exact ⟨grown_newPattern _, trivial⟩

def watchBond (ω : Type) (env : Env) : Bond ω (Watched ω) where
  toTerms := .same env False
  rel := fun _ m m' => m = m'.unwatched
  heap_eq := fun h => by rw [h]; rfl
  random_eq := fun h => by rw [h]; rfl
  captured_eq := fun h => by rw [h]; rfl
  set_heap := fun h _ => by rw [h]; rfl
  set_random := fun _ h => by rw [h]; rfl
  add_warning := fun _ _ h => by rw [h]; rfl
  assign_local := fun _ _ h => by rw [h]; rfl
  push_frame := fun _ h => by rw [h]; rfl
  pop_frame := fun h => by rw [h]; rfl

def watchAccord (ω : Type) (env : Env) : Accord ω (Watched ω) where
  toTerms := .same env False
  rel := fun _ m m' => m = m'.unwatched ∧ Sound env m'
  kind := fun m => m.heap.kind
  form := fun _ _ => True
  le := fun m m' => m.heap.Wider m'.heap
  le_refl := fun m => .refl m.heap
  le_trans := .trans
  kind_mono := fun hwider hv => hv.mono hwider
  heap_eq := fun h => (watchBond ω env).heap_eq (n := 0) h.1
  captured_eq := fun h => (watchBond ω env).captured_eq (n := 0) h.1
  all_heap := fun h => h.2.closed.all
  all_frames := fun h => h.2.frames
  all_scope := fun s h => h.2.scopes s
  literal := fun _ _ _ => trivial
  closure := fun _ _ _ _ _ => trivial
  pattern := fun _ _ _ => ⟨trivial, trivial⟩
  make_cell := by
    rintro _ _ m' r ⟨rfl, hm⟩ hmade
    have ⟨hgrown, hv⟩ := grown_of_allocates hmade
    exact ⟨⟨rfl, hm.grow hgrown⟩, hgrown.wider, hv⟩
  free := False.elim
  add_warning := by
    rintro _ _ m' s - ⟨rfl, hm⟩
    exact ⟨⟨rfl, hm.closed, hm.scopes, hm.frames, hm.noLoop, hm.noLoops_iff⟩, .refl _⟩

lemma watchAccord_runs : (watchAccord ω env).Runs := by
  have hframes {m : Machine (Watched ω)} (hm : Sound env m) {fs : List (Bindings Value)} (hfs : m.heap.kind.All fs) :
      Sound env { m with frames := fs } := ⟨hm.closed, hm.scopes, hfs, hm.noLoop, hm.noLoops_iff⟩
  refine ⟨?_, ?_, ?_, ?_, ?_⟩
  · rintro _ _ m' ⟨rfl, hm⟩
    rfl
  · rintro _ _ m' x ⟨rfl, hm⟩
    exact ⟨⟨rfl, hm.closed, hm.scopes, hm.frames, hm.noLoop, hm.noLoops_iff⟩, .refl _⟩
  · rintro _ _ m' v name ⟨rfl, hm⟩ hv
    exact ⟨⟨rfl, hframes hm (all_assignLocal (k := m'.heap.kind) hm.frames name hv)⟩, .refl _⟩
  · rintro _ _ m' f ⟨rfl, hm⟩ hf
    exact ⟨⟨rfl, hframes hm (all_cons.2 ⟨hf, hm.frames⟩)⟩, .refl _⟩
  · rintro _ _ m' ⟨rfl, hm⟩
    exact ⟨⟨rfl, hframes hm fun f hf => hm.frames f (List.mem_of_mem_tail hf)⟩, .refl _⟩

/-! Changes of cells on record. -/

def noting (x : ScriptM (Watched ω) α) : ScriptM (Watched ω) α := fun m =>
  match x m with
  | .ok a m' => .ok a { m' with host := (m'.host.1, (m.heap, m'.heap) :: m'.host.2) }
  | .error e m' => .error e m'

lemma Sound.note (hm : Sound env m) {c : Value} {g g' : Heap} (hchanged : m.heap.Changed c g) (hgrown : g.Grown g') :
    Sound env { m with heap := g', host := (m.host.1, (m.heap, g') :: m.host.2) } where
  closed := hgrown.closed (hchanged.closed hm.closed)
  scopes := fun s => (hm.scopes s).mono (hchanged.wider.trans hgrown.wider)
  frames := fun f hf v hv => (hm.frames f hf v hv).mono (hchanged.wider.trans hgrown.wider)
  noLoop := fun hnone => by
    rw [List.forall_mem_cons] at hnone
    exact (hchanged.noLoop_iff hgrown hm.closed (hm.noLoop hnone.2)).2 hnone.1
  noLoops_iff := by
    rw [List.forall_mem_cons, List.forall_mem_cons, hm.noLoops_iff]
    exact and_congr_left fun hnone => hchanged.noLoop_iff hgrown hm.closed (hm.noLoop hnone)

/-- What one cell holds has been replaced and new cells have been made, or nothing has been done. -/
inductive Replaced (m : Machine (Watched ω)) [Holding α] : EStateM.Result ScriptError (Machine (Watched ω)) α → Prop
  | ok {a : α} {c : Value} {g g' : Heap} : m.heap.Changed c g → g.Grown g' → g'.kind.All a →
    Replaced m (.ok a { m with heap := g' })
  | error {e : ScriptError} : Replaced m (.error e m)

lemma Replaced.array [Holding α] {f : Array Value → Array Value} {a : α}
    (hf : m.heap.kind.All (f (m.heap.array ref)).toList) (ha : m.heap.kind.All a) :
    Replaced m (.ok a { m with heap := m.heap.modifyArray ref f }) :=
  have hchanged := changed_modifyArray fun v hv => hf v hv.val
  .ok hchanged (.refl _) (all_mono hchanged.wider ha)

lemma Replaced.object {f : Bindings Value → Bindings Value} (hf : m.heap.kind.All (f (m.heap.object ref))) :
    Replaced m (.ok () { m with heap := m.heap.modifyObject ref f }) :=
  .ok (changed_modifyObject hf) (.refl _) trivial

lemma abreast_noting [Holding α] {x : ScriptM ω α} {y : ScriptM (Watched ω) α} (hxy : (watchBond ω env).Lockstep n x y)
    (hy : ∀ m, Sound env m → w.heap.Wider m.heap → Replaced m (y m)) :
      (watchAccord ω env).Abreast n w x (noting y) := by
  refine ⟨fun m m' hr hwider => ?_, fun _ _ => False.elim⟩
  have hm := hxy m m' hr.1
  have hreplaced := hy m' hr.2 hwider
  unfold noting
  generalize x m = r, y m' = r' at hm hreplaced ⊢
  cases hreplaced with
  | ok hchanged hgrown ha =>
    cases hm with
    | ok a hR => exact .ok ⟨hR, hr.2.note hchanged hgrown⟩ (hwider.trans (hchanged.wider.trans hgrown.wider)) ha
    | off hlax => exact hlax.elim
  | error =>
    cases hm with
    | error e hR => exact .error ⟨hR, hr.2⟩ hwider fun _ _ => trivial
    | off hlax => exact hlax.elim

lemma callListMethod_of_writes (hmethod : method.writes = true) (call call' : Value → List Value → ScriptM ω Value) :
    callListMethod call env ref method args = callListMethod call' env ref method args := by
  cases method <;> first | rfl | cases hmethod

lemma replaced_listMethod (call : Value → List Value → ScriptM (Watched ω) Value) (hm : Sound env m)
    (href : m.heap.kind.All (Value.array ref)) (hmethod : method.writes = true)
    (hargs : m.heap.kind.All args) : Replaced m (callListMethod call env ref method args m) := by
  have hitems : m.heap.kind.All (m.heap.array ref).toList := all_array hm.closed.all ref
  have hitem : ∀ {o : Option Value}, (∀ v ∈ o, v ∈ m.heap.array ref) → m.heap.kind.All (o.getD .undefined) :=
    fun ho => all_getD fun v hv => hitems v (ho v hv).val
  have hextract := all_extract hitems
  cases method with
  | push => exact .array (by simp [hitems, hargs]) trivial
  | pop =>
    have hpop : m.heap.kind.All (m.heap.array ref).pop.toList := all_of_subset hitems fun v hv => by
      rw [Array.toList_pop] at hv
      exact List.mem_of_mem_dropLast hv
    exact .array hpop (hitem fun v hv => Array.mem_of_back? hv)
  | shift => exact .array (hextract _ _) (hitem fun v hv => Array.mem_of_getElem? hv)
  | unshift => exact .array (by simp [hitems, hargs]) trivial
  | splice =>
    obtain ⟨⟨start, count⟩, hrange⟩ : ∃ r, spliceRange (m.heap.array ref).size args m = .ok r m :=
      ⟨_, spliceRange_eq _ args m⟩
    have hchanged : m.heap.Changed (.array ref) (m.heap.modifyArray ref fun items =>
        items.extract 0 start ++ (args.drop 2).toArray ++ items.extract (start + count) items.size) := by
      refine changed_modifyArray fun v hv => ?_
      rcases Array.mem_append.1 hv with hv | hv
      · rcases Array.mem_append.1 hv with hv | hv
        · exact hextract _ _ v hv.val
        · exact hargs v (List.mem_of_mem_drop (List.mem_toArray.1 hv))
      · exact hextract _ _ v hv.val
    have htaken : (m.heap.modifyArray ref _).kind.All ((m.heap.array ref).extract start (start + count)).toList :=
      all_mono hchanged.wider (hextract _ _)
    change Replaced m (EStateM.bind (spliceRange _ args) _ m)
    unfold EStateM.bind
    rw [hrange]
    refine .ok hchanged (grown_newArray fun v hv => htaken v hv.val) ?_
    change _ < (Array.push _ _).size
    simp
  | reverse => exact .array (all_of_subset hitems fun v hv => by simpa using hv) href
  | _ => cases hmethod

lemma replaced_setProperty (hm : Sound env m) (target key : Value) (hv : m.heap.kind.All v) :
    Replaced m (setProperty env target key v m) := by
  unfold setProperty
  cases target with
  | object ref =>
    dsimp only
    split
    · exact .error
    · refine .object fun w hw => ?_
      obtain rfl | hw := Bindings.mem_values_insert hw
      · exact hv
      · exact all_object hm.closed.all ref w hw
  | array ref =>
    have hitems : m.heap.kind.All (m.heap.array ref).toList := all_array hm.closed.all ref
    have hlimited : ∀ (c : Prop) [Decidable c] (n : Nat) {f : Array Value → Array Value},
        m.heap.kind.All (f (m.heap.array ref)).toList → Replaced m ((do
          if c then checkIterations env n
          modifyHeap fun h => h.modifyArray ref f : ScriptM (Watched ω) Unit) m) := by
      intro c _ n f hf
      unfold checkIterations
      split
      · split
        · exact .error
        · exact .array hf trivial
      · exact .array hf trivial
    change Replaced m (EStateM.bind _ _ m)
    cases key.index? with
    | some i => exact hlimited _ _ (all_storeAt hitems i hv)
    | none =>
      change Replaced m ((if m.heap.display key == "length" then _ else _ : ScriptM (Watched ω) Unit) m)
      split
      · cases v.index? with
        | none => exact .error
        | some n => exact hlimited _ _ (all_resize hitems n)
      · exact .error
  | _ => exact .error

lemma replaced_assign (hm : Sound env m) (hargs : m.heap.kind.All args) : Replaced m (callBuiltin .assign args m) := by
  change Replaced m (assignFields args m)
  unfold assignFields
  split
  · rename_i ref sources
    have hchanged : ∀ (sources : List Value) (m : Machine (Watched ω)), m.heap.Closed →
        ∃ g, m.heap.Changed (.object ref) g ∧ (sources.forM fun v => do
          let fields := fieldsOf (← heap) v
          modifyHeap fun h => h.modifyObject ref fun o => o.insertAll fields : ScriptM (Watched ω) PUnit) m =
          .ok () { m with heap := g } := by
      intro sources
      induction sources with
      | nil =>
        exact fun m hclosed => ⟨m.heap, ⟨.refl _, .refl _, rfl, fun _ _ => rfl, fun _ hw => hclosed.items hw⟩, rfl⟩
      | cons v rest ih =>
        intro m hclosed
        have hheap := hclosed.all
        have hfirst : m.heap.Changed (.object ref) (m.heap.modifyObject ref fun o => o.insertAll (fieldsOf m.heap v)) :=
          changed_modifyObject (all_insertAll (all_object hheap ref) (all_fieldsOf hheap v))
        obtain ⟨g, hrest, he⟩ := ih { m with heap := _ } (hfirst.closed hclosed)
        exact ⟨g, hfirst.trans hrest, he⟩
    obtain ⟨g, hg, he⟩ := hchanged sources m hm.closed
    change Replaced m (EStateM.bind _ _ m)
    unfold EStateM.bind
    rw [he]
    exact .ok hg (.refl _) (all_mono hg.wider (all_cons.1 hargs).1)
  · exact .error

/-! Watched evaluation. -/

section Watching

variable (env : Env)

def watchedWrite : Place → Value → ScriptM (Watched ω) Unit
  | .param name, v => writePlace env (.param name) v
  | .property target key, v => noting (setProperty env target key v)

def watchedMethod (call : Value → List Value → ScriptM (Watched ω) Value) (ref : Nat)
    (method : ListMethod) (args : List Value) : ScriptM (Watched ω) Value :=
  match method with
  | .sort => do
    let sorted ← sortedItems call env ref args
    noting (modifyHeap fun h => h.modifyArray ref fun _ => sorted.toArray)
    return .array ref
  | _ =>
    if method.writes then noting (callListMethod call env ref method args) else callListMethod call env ref method args

def watchedCall (plain : Value → List Value → ScriptM (Watched ω) Value) (f : Value)
    (recv : Option Value) (args : List Value) : ScriptM (Watched ω) Value := do
  match f, recv with
  | .function ref, some (.array list) =>
    match (← heap).function? ref with
    | some (.method name) =>
      match ListMethod.ofName? name with
      | some method => watchedMethod env plain list method args
      | none => refuse (.notFunction name)
    | _ => plain f args
  | _, _ => callWith env plain f recv args

def watchedLibrary : Library (Watched ω)
  | .assign, args => noting (callBuiltin .assign args)
  | b, args => callBuiltin b args

def watchedClosure : Nat → List String → Expr → Bindings Value → List Value → ScriptM (Watched ω) Value
  | 0, _, _, _, _ => throw ⟨.callDepth env.maxDepth, none⟩
  | depth + 1, params, body, captures, args =>
    withFrame (callFrame params captures args)
      (evalWith env asIs (watchedWrite env)
        (watchedCall env (callBy watchedLibrary noInvoker (watchedClosure depth))) body)

def watchedEval (e : Expr) : ScriptM (Watched ω) Value :=
  evalWith env asIs (watchedWrite env)
    (watchedCall env (callBy watchedLibrary noInvoker (watchedClosure env env.maxDepth))) e

end Watching

open Accord (AbreastTo)

/-! Watched evaluation goes along with evaluation, and keeps machines sound. -/

lemma watchAccord_anyText : (watchAccord ω env).AnyText := fun _ _ => trivial

lemma abreast_watchedWrite (place : Place) (hv : w.heap.kind.All v) :
    (watchAccord ω env).Abreast n w (writePlace env place v) (watchedWrite env place v) := by
  cases place with
  | param name => exact AbreastTo.writeParam (A := watchAccord ω env) watchAccord_runs name hv
  | property target key =>
    let B := watchBond ω env
    exact abreast_noting (B.lockstep fun _ => .setProperty B.writes target key (B.all v))
      fun m hm hwider => replaced_setProperty hm target key (all_mono hwider hv)

section Plain

variable {plain : Value → List Value → ScriptM ω Value} {plain' : Value → List Value → ScriptM (Watched ω) Value}
  (hplain : ∀ {w : Machine (Watched ω)} {f : Value} {args : List Value}, w.heap.kind.All args →
    (watchAccord ω env).Abreast n w (plain f args) (plain' f args))
include hplain

lemma abreast_watchedMethod (href : w.heap.kind.All (Value.array ref)) (method : ListMethod)
    (hargs : w.heap.kind.All args) :
    (watchAccord ω env).Abreast n w (callListMethod plain env ref method args)
      (watchedMethod env plain' ref method args) := by
  let B := watchBond ω env
  unfold watchedMethod
  split
  · refine .bind (.sortedItems hplain ref args) fun _ sorted hwider hsorted => ?_
    refine .bind (abreast_noting (B.lockstep fun _ => .modifyArray B.writes ref fun _ _ _ _ => B.all _) ?_) ?_
    · exact fun m _ hwider => .array (all_mono hwider hsorted) trivial
    · exact fun _ _ hwider' _ => .pure (all_mono (hwider.trans hwider') href)
  · rename_i hsort
    split
    · rename_i hwrites
      let idle {ω : Type} : Value → List Value → ScriptM ω Value := fun _ _ => refuse .repeatCount
      rw [callListMethod_of_writes hwrites plain idle, callListMethod_of_writes hwrites plain' idle]
      exact abreast_noting (B.lockstep fun _ => .callListMethod (fun _ => .refuse _) (.inl B.writes)
        (B.all _) (B.all args))
        fun m hm hwider => replaced_listMethod idle hm (all_mono hwider href) hwrites (all_mono hwider hargs)
    · rename_i hwrites
      exact .known (.inl watchAccord_anyText) (.callListMethod hplain (.inr ⟨hsort, by simpa using hwrites⟩) href hargs)

lemma abreast_watchedCall (f : Value) {recv : Option Value} (hrecv : w.heap.kind.All recv)
    (hargs : w.heap.kind.All args) :
    (watchAccord ω env).Abreast n w (callWith env plain f recv args) (watchedCall env plain' f recv args) := by
  unfold watchedCall
  split
  · rename_i ref list
    refine .bind .heap fun _ h hwider _ => ?_
    have hargs := all_mono hwider hargs
    rcases h.function? ref with _ | f
    · exact hplain hargs
    · cases f with
      | method name =>
        unfold callMethod
        dsimp only
        cases ListMethod.ofName? name with
        | some method => exact abreast_watchedMethod hplain (all_mono hwider (all_some.1 hrecv)) method hargs
        | none => exact .refuse _
      | _ => exact hplain hargs
  · rename_i hlist
    unfold callWith
    split
    · refine .bind .heap fun _ h hwider _ => ?_
      have hargs := all_mono hwider hargs
      split
      · have hrecv := all_mono hwider (all_some.1 hrecv)
        exact .known (.inl watchAccord_anyText) (.callMethod hplain _ (.inr fun ref he =>
          hlist _ ref rfl (he ▸ rfl)) (.inl watchAccord_anyText) hrecv hargs)
      · exact hplain hargs
    · exact hplain hargs

end Plain

lemma abreast_watchedLibrary (b : Builtin) (hargs : w.heap.kind.All args) :
    (watchAccord ω env).Abreast n w (callBuiltin b args) (watchedLibrary b args) := by
  unfold watchedLibrary
  split
  · exact abreast_noting ((watchBond ω env).callBuiltin .assign args fun _ _ _ hmarked => hmarked.1)
      fun m hm hwider => replaced_assign hm (all_mono hwider hargs)
  · rename_i hb
    exact .callBuiltin watchAccord_runs (.inl watchAccord_anyText) fun he => absurd he hb

lemma abreast_watchedEval (e : Expr) : (watchAccord ω env).Abreast n w (eval env noInvoker e) (watchedEval env e) := by
  have heach : (watchAccord ω env).Allows false e := ⟨fun _ _ _ => trivial, fun _ _ => trivial⟩
  refine .evalWith (.asIs watchAccord_anyText) (fun _ _ => abreast_watchedWrite _)
    (fun _ _ => abreast_watchedCall ?_ _) e heach
  refine fun hargs => .callBy (abreast_watchedLibrary _) (fun _ => .noInvoker _ _ _) ?_ hargs
  exact .closures (abreast_watchedLibrary _) (fun _ => .noInvoker _ _ _) (fun _ _ _ _ => rfl) (fun _ _ _ _ _ => rfl)
    watchAccord_runs (.asIs watchAccord_anyText) (abreast_watchedWrite _) (fun hplain =>
    abreast_watchedCall hplain _) (.inl rfl)

end StoryMarkup.Script
