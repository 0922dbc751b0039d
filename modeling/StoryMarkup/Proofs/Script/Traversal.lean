import StoryMarkup.Proofs.Script.Interchange
import StoryMarkup.Proofs.Script.Watching

/-! Going through what the story refers to comes to an end just if no cell comes back to itself. -/
namespace StoryMarkup.Script

open ScriptM

variable {ω β γ : Type} {env : Env} {ref : Nat} (depth : Nat)

namespace Machine

def watched (m : Machine ω) : Machine (Watched ω) := { m with host := (m.host, []) }

def changes (m : Machine (Watched ω)) : List (Heap × Heap) := m.host.2

end Machine

def evaluateAll (eval : Expr → ScriptM ω Value) (m : Machine ω) (es : List Expr) : Machine ω :=
  es.foldl (fun m e => ending (eval e m)) m

lemma sound_evaluateAll {m : Machine (Watched ω)} (hm : Sound env m) (es : List Expr) :
    evaluateAll (eval env noInvoker) m.unwatched es = (evaluateAll (watchedEval env) m es).unwatched
      ∧ Sound env (evaluateAll (watchedEval env) m es) := by
  induction es generalizing m with
  | nil => exact ⟨rfl, hm⟩
  | cons e rest ih =>
    obtain ⟨hsame, hsound⟩ := ((abreast_watchedEval (n := 0) e).agrees m.unwatched m ⟨rfl, hm⟩ (.refl _)).ends
    change evaluateAll _ (ending (eval env noInvoker e m.unwatched)) rest = _ ∧ _
    rw [hsame]
    exact ih hsound

/-! Copies. -/

namespace Heap

variable {h g : Heap}

lemma Extends.array_eq (he : h.Extends g) (hlt : ref < h.arrays.size) : g.array ref = h.array ref := by
  simp [array, he.arrays (Array.getElem?_eq_getElem hlt), hlt]

lemma Extends.object_eq (he : h.Extends g) (hlt : ref < h.objects.size) : g.object ref = h.object ref := by
  simp [object, he.objects (Array.getElem?_eq_getElem hlt), hlt]

def copyItem (value : γ → Value) (part : γ → Value → β) (depth : Nat) (acc : List β × Heap) (c : γ) : List β × Heap :=
  (part c (copyWithin depth (value c) acc.2).1 :: acc.1, (copyWithin depth (value c) acc.2).2)

lemma copyWithin_array (ref : Nat) (h : Heap) : copyWithin (depth + 1) (.array ref) h =
    let copied := (h.array ref).toList.foldl (copyItem id (fun _ w => w) depth) ([], h)
    copied.2.newArray copied.1.reverse.toArray := rfl

lemma copyWithin_object (ref : Nat) (h : Heap) : copyWithin (depth + 1) (.object ref) h =
    let copied := (h.object ref).entries.foldl (copyItem (·.2) (fun e w => (e.1, w)) depth) ([], h)
    copied.2.newObject (.ofList copied.1.reverse) := rfl

lemma Extends.copyWithin (v : Value) (h : Heap) : h.Extends (copyWithin depth v h).2 := by
  induction depth generalizing v h with
  | zero => exact .refl h
  | succ depth ih =>
    have hcopies {β γ : Type} (value : γ → Value) (part : γ → Value → β) (items : List γ)
        (acc : List β × Heap) : acc.2.Extends (items.foldl (copyItem value part depth) acc).2 := by
      induction items generalizing acc with
      | nil => exact .refl _
      | cons c rest ih' => exact (ih (value c) acc.2).trans (ih' (copyItem value part depth acc c))
    cases v with
    | array ref =>
      rw [copyWithin_array]
      exact (hcopies _ _ _ ([], h)).trans (.newArray _ _)
    | object ref =>
      rw [copyWithin_object]
      exact (hcopies _ _ _ ([], h)).trans (.newObject _ _)
    | _ => exact .refl h

lemma copies_eq {value : γ → Value} {part : γ → Value → β} {k m : Nat} {items : List γ}
    (hsame : ∀ g, h.Extends g → ∀ c ∈ items, Heap.copyWithin k (value c) g = Heap.copyWithin m (value c) g)
    {acc : List β × Heap} (hacc : h.Extends acc.2) : items.foldl (copyItem value part k) acc =
      items.foldl (copyItem value part m) acc := by
  induction items generalizing acc with
  | nil => rfl
  | cons c rest ih =>
    have hfirst : copyItem value part m acc c = copyItem value part k acc c := by
      rw [copyItem, copyItem, hsame acc.2 hacc c List.mem_cons_self]
    rw [List.foldl_cons, List.foldl_cons, hfirst]
    exact ih (fun g hg c hc => hsame g hg c (List.mem_cons_of_mem _ hc)) (hacc.trans (.copyWithin k _ _))

lemma Acyclic.copyWithin_eq {v : Value} (hv : h.Acyclic v) (hclosed : h.Closed) (hknown : h.Knows v)
    {depth : Nat} (hdepth : h.depth ≤ depth) : Heap.copyWithin depth v h = h.copy v := by
  -- the heap that the items are copied on has grown by the copies before them
  have hwalk := @Acyclic.walk_eq v h _ (fun k w (g : { g // h.Extends g }) =>
    Heap.copyWithin k w g.val) hv (fun k m w hw hitems => ?_) depth h.depth hdepth le_rfl
  · exact congrFun hwalk ⟨h, .refl h⟩
  · funext ⟨g, hg⟩
    have hknown := hclosed.knows_of_reaches hknown hw
    cases w with
    | array ref =>
      have hcopies : (h.array ref).toList.foldl (copyItem id (fun _ w => w) k) ([], g) =
          (h.array ref).toList.foldl (copyItem id (fun _ w => w) m) ([], g) :=
        copies_eq (fun g hg c hc => congrFun (hitems c hc) ⟨g, hg⟩) hg
      simp [copyWithin_array, hg.array_eq hknown, hcopies]
    | object ref =>
      have hcopies : (h.object ref).entries.foldl (copyItem (·.2) (fun e w => (e.1, w)) k) ([], g) =
          (h.object ref).entries.foldl (copyItem (·.2) (fun e w => (e.1, w)) m) ([], g) :=
        copies_eq (fun g hg e he => congrFun (hitems e.2 (List.mem_map_of_mem he)) ⟨g, hg⟩) hg
      simp [copyWithin_object, hg.object_eq hknown, hcopies]
    | _ => rfl

end Heap

lemma sound_of_blank {m : Machine ω} (hitems : ∀ v, m.heap.items v = []) (hfunctions : m.heap.functions = #[])
    (hscopes : ∀ s, env.scope s < m.heap.objects.size) (hframes : m.frames = []) : Sound env m.watched := by
  have hholds : ∀ v w, ¬ m.heap.Holds v w := fun v w hvw => by simp [Heap.Holds, hitems] at hvw
  refine ⟨⟨fun hvw => absurd hvw (hholds _ _), fun f hf => ?_⟩, hscopes, fun f hf =>
    ?_, fun _ v hv => ?_, by simp [Machine.watched]⟩
  · change f ∈ m.heap.functions at hf
    simp [hfunctions] at hf
  · change f ∈ m.frames at hf
    simp [hframes] at hf
  · obtain ⟨w, hvw, -⟩ := Relation.TransGen.head'_iff.1 hv
    exact hholds v w hvw

/-- Unless a loop is closed, everything the story leads to can be gone through, and deeper than it
goes changes nothing. -/
theorem story_traversable_unless_loop_closed (env : Env) (es : List Expr) {m : Machine ω}
    (hm : Sound env m.watched) : let watched := evaluateAll (watchedEval env) m.watched es
    let after := evaluateAll (eval env noInvoker) m es
    after = watched.unwatched ∧
      ((∀ c ∈ watched.changes, c.2.NoLoop) ↔ ∀ c ∈ watched.changes, ¬ c.1.Closes c.2) ∧
      ((∀ c ∈ watched.changes, ¬ c.1.Closes c.2) → ∀ v, after.heap.Reaches (.object env.story) v →
        Acc (fun w v => after.heap.Holds v w) v ∧ ∀ depth, after.heap.depth ≤ depth →
          after.heap.toJsonWithin depth v = after.heap.toJson v ∧
          after.heap.displayWithin depth v = after.heap.display v ∧
          Heap.copyWithin depth v after.heap = after.heap.copy v) := by
  intro watched after
  obtain ⟨hsame, hsound⟩ : after = watched.unwatched ∧ Sound env watched := sound_evaluateAll hm es
  refine ⟨hsame, hsound.noLoops_iff, fun hnone v hv => ?_⟩
  rw [hsame] at hv ⊢
  have hacyclic := (hsound.noLoop hnone).acyclic v
  have hknown := hsound.closed.knows_of_reaches (hsound.scopes .story) hv
  exact ⟨hacyclic.acc, fun depth hdepth =>
    ⟨hacyclic.toJsonWithin_eq hdepth, hacyclic.displayWithin_eq hdepth, hacyclic.copyWithin_eq
      hsound.closed hknown hdepth⟩⟩

/-- Evaluation from empty scopes, with a list that two fields share. -/
theorem shared_list_traversable : let env : Env := { story := 0, temp := 1, constants := 2 }
    let m : Machine Unit := { heap := { objects := #[.empty, .empty, .empty] }, host := () }
    let es := ["story.list = [\"a\"]", "story.held = \x7blist: story.list\x7d",
      "story.list.push(\"b\")"].map fun code => (Expr.parse code.toList).toOption.getD default
    let watched := evaluateAll (watchedEval env) m.watched es
    let after := evaluateAll (eval env noInvoker) m es
    Sound env m.watched ∧ watched.changes.length = 3 ∧ (∀ c ∈ watched.changes, ¬ c.1.Closes c.2) ∧
      Acc (fun w v => after.heap.Holds v w) (.object 0) ∧ ∀ depth, after.heap.depth ≤ depth →
        after.heap.toJsonWithin depth (.object 0) = after.heap.toJson (.object 0) := by
  intro env m es watched after
  have hm : Sound env m.watched := by
    refine sound_of_blank (fun v => ?_) rfl (fun s => by cases s <;> decide) rfl
    cases v with
    | object ref => rcases ref with _ | _ | _ | ref <;> rfl
    | _ => rfl
  -- the story ranks above the other objects, and these above the list
  let rank : Value → Nat := fun v => if v.strictEq (.object 0) then 3 else if v.strictEq
    (.object 3) then 2 else if v.strictEq (.array 0) then 1 else 0
  have hranked : ∀ c ∈ watched.changes,
      (∀ ref < c.2.arrays.size, ∀ w ∈ (c.2.array ref).toList, rank w < rank (.array ref)) ∧
      ∀ ref < c.2.objects.size, ∀ w ∈ (c.2.object ref).values, rank w < rank (.object ref) := by
    decide +kernel
  have htraversable := story_traversable_unless_loop_closed env es hm
  have hnone : ∀ c ∈ watched.changes, ¬ c.1.Closes c.2 :=
    htraversable.2.1.1 fun c hc => Heap.noLoop_of_rank rank (hranked c hc).1 (hranked c hc).2
  have hstory := htraversable.2.2 hnone (.object 0) .refl
  exact ⟨hm, by decide +kernel, hnone, hstory.1, fun depth hdepth => (hstory.2 depth hdepth).1⟩

/-- A list that is pushed to itself comes back to itself, and going through the story does not come
to an end. -/
theorem list_pushed_to_itself_loops : let env : Env := { story := 0, temp := 1, constants := 2 }
    let m : Machine Unit := { heap := { objects := #[.empty, .empty, .empty] }, host := () }
    let es := ["story.a = []", "story.a.push(story.a)"].map fun code => (Expr.parse code.toList).toOption.getD default
    let after := evaluateAll (eval env noInvoker) m es
    after.heap.Holds (.object 0) (.array 0) ∧ after.heap.Holds (.array 0) (.array 0) ∧
      ¬ Acc (fun w v => after.heap.Holds v w) (.object 0) := by
  intro env m es after
  have hmem : ∀ v, (after.heap.items v).any (·.strictEq (.array 0)) = true → after.heap.Holds v (.array 0) := by
    intro v hv
    obtain ⟨w, hw, he⟩ := List.any_eq_true.1 hv
    cases w <;> simp_all [Value.strictEq, Heap.Holds]
  have hstory : after.heap.Holds (.object 0) (.array 0) := hmem _ (by decide +kernel)
  have hlist : after.heap.Holds (.array 0) (.array 0) := hmem _ (by decide +kernel)
  exact ⟨hstory, hlist, fun hacc => loopFree_of_acc hacc (.array 0) (.single hstory) (.single hlist)⟩

end StoryMarkup.Script
