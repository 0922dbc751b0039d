import StoryMarkup.Macros.Table
import StoryMarkup.Proofs.Render.Fellows

/-! Callbacks and macros by the means of fellows. Only the loop signal of its body leads out of a
macro. -/
namespace StoryMarkup.Render

open Script (Value)

variable {G : Regime} {p : Footing} {out : Signal → Prop} {r r' : Renderer} (scope : Nat)

section Callbacks

@[simp] lemma Regime.newScope (fields : Bindings Value) : G.Keeps p (newScope fields) := by
  refine .rigid fun w w' hw => ?_
  refine .of_ok ?_ (hw.set_heap _)
  simp [Render.newScope, hw.heap_eq]

@[simp] lemma Regime.modifyScope (f : Bindings Value → Bindings Value) :
    G.Keeps p (modifyScope scope f) := Regime.modifyHeap fun h => h.modifyObject scope f

@[simp] lemma Regime.dropCallback (id : Nat) : G.Keeps p (dropCallback id) :=
  Regime.modifyStage fun _ => {}

lemma Regime.withCaptures {x y : RenderM Unit} (captures : Captures) (h : G.Lockstep p x y) :
    G.Lockstep p (withCaptures scope captures x) (withCaptures scope captures y) := by
  refine Regime.bind_get fun w w' hw => ?_
  rw [hw.heap_eq]
  exact .bind (Regime.modifyScope _ _) fun _ => .bind h fun _ => Regime.modifyScope _ _

lemma Alike.goTo (h : Alike G p (fun _ => False) r r') (name : String) :
    G.Lockstep p (goTo r name) (goTo r' name) := by
  unfold Render.goTo
  rw [h.setting_eq]
  refine Regime.bind_get fun w w' hw => ?_
  rw [hw.heap_eq]
  refine .bind Regime.stage fun s => .bind (Regime.newScope _) fun temp =>
    .bind (Regime.modifyStage fun _ => {}) fun _ => ?_
  exact Regime.finish _ ((h.passage _ name).lockstep fun _ => id)

lemma Alike.runAction (h : Alike G p (fun _ => False) r r') (c : Callback) (event : Event) :
    G.Lockstep p (runAction r c event) (runAction r' c event) := by
  have hnodes : ∀ target spot ts, G.Lockstep p (finish target (r.nodes spot ts)) (finish target (r'.nodes spot ts)) :=
    fun target spot ts => Regime.finish target ((h.nodes spot ts).lockstep fun _ => id)
  unfold Render.runAction
  cases c.action with
  | render body target mode => exact .bind (Regime.modifyDocument _) fun _ => hnodes _ _ _
  | navigate passage => exact h.goTo passage
  | link body passage mode =>
    rcases passage with _ | passage
    · refine .bind (Regime.createElement _) fun span => .bind (Regime.modifyDocument _) fun _ => ?_
      rcases body with _ | body
      · exact .pure _
      · exact hnodes _ _ _
    · rcases body with _ | body
      · exact h.goTo passage
      · exact .bind (Regime.createElement _) fun scratch => .bind (hnodes _ _ _) fun _ => h.goTo passage
  | call f =>
    refine .bind (Regime.newScope _) fun argument => .bind (h.callValue f _ _) fun found => ?_
    cases found with
    | ok v => exact .pure _
    | error cause => exact .bind (Regime.displayError _ _) fun _ => .pure _
  | bind target =>
    dsimp only
    cases event.bound? with
    | none => exact .pure _
    | some v => exact Regime.finish _ (.bind (h.assign target v _) fun _ => .pure _)

lemma Fellows.fire (h : Fellows G p out r r') (id : Nat) (event : Event) :
    G.Lockstep p (fire r id event) (fire r' id event) := by
  refine .bind Regime.stage fun s => ?_
  cases s.callbacks.lookup id with
  | none => exact .pure _
  | some c =>
    have hrun := Regime.withCaptures c.temp c.captures (Regime.inPass (h.pass.runAction c event))
    exact .bind Regime.stage fun s =>
      .ite (.ite (.bind (Regime.dropCallback id) fun _ => hrun) hrun) (Regime.dropCallback id)

lemma Fellows.trigger (h : Fellows G p out r r') (name : String) :
    G.Lockstep p (trigger r name) (trigger r' name) := by
  refine .bind Regime.stage fun s => .bind (.forM _ fun id => h.fire id _) fun _ => Regime.modifyStage fun s => ?_
  cases s.redoables.get? name with
  | none | some ids => exact {}

end Callbacks

def Leaves (out : Signal → Prop) : Output → Prop
  | .signal s => out s
  | _ => False

/-- A macro that stays abreast with fellows unless it hands on a way out. -/
def Handler.Steady (handler : Handler) : Prop :=
  ∀ {G : Regime} {p : Footing} {out : Signal → Prop} {r r' : Renderer}, Fellows G p out r r' →
    ∀ ctx, G.Follows p (Leaves out) (handler r ctx) (handler r' ctx)

end StoryMarkup.Render

namespace StoryMarkup.Macros

open Markup (ExprSource Segment Template)
open Render
open Script (Value)

variable {G : Regime} {p : Footing} {out : Signal → Prop} {r r' : Renderer} (ctx : Context)

lemma leaves_signalOutput {s : Signal} (hout : ¬ out .normal) (h : out s) : Leaves out (signalOutput s) := by
  cases s with
  | normal => exact absurd h hout
  | breakLoop | continueLoop => exact h

lemma follows_signalOutput {x y : RenderM Signal} (hout : ¬ out .normal) (h : G.Follows p out x y) :
    G.Follows p (Leaves out) (do return signalOutput (← x)) (do return signalOutput (← y)) :=
  .bind h (fun _ => .of_lockstep _ (.pure _)) fun _ _ hs _ => ⟨_, rfl, leaves_signalOutput hout hs⟩

lemma drawing_valueOutput (v : Value) : Drawing (valueOutput v) := by
  cases v with
  | undefined | node number => exact .pure _
  | _ => exact .bind (.display _) fun _ => .pure _

@[simp] lemma lockstep_fail {α : Type} (mistake : Mistake) :
    G.Lockstep p (ctx.fail mistake : RenderM α) (ctx.fail mistake) := .throw _

@[simp] lemma lockstep_firstArg (what : String) : G.Keeps p (firstArg ctx what) := by
  unfold firstArg
  cases ctx.rawArgs <;> simp

lemma steady_unnamed : unnamed.Steady := by
  intro G p out r r' h ctx
  refine .of_lockstep _ ?_
  have hlast : ∀ args last, G.Lockstep p (lastStatement r ctx.site last args)
    (lastStatement r' ctx.site last args) := by
    intro args
    induction args with
    | nil => exact fun last => .pure last
    | cons e rest ih => exact fun last => .bind (h.evalStatement e ctx.site) ih
  unfold unnamed
  cases ctx.rawArgs with
  | nil =>
    dsimp only
    cases ctx.values.getLast? with
    | none => exact .pure _
    | some v => exact Regime.drawing (drawing_valueOutput v)
  | cons e rest => exact .bind (hlast _ _) fun last => .ite (.pure _) (Regime.drawing (drawing_valueOutput _))

lemma steady_print : print.Steady := by
  intro G p out r r' h ctx
  refine .of_lockstep _ ?_
  unfold print
  split
  · exact .pure _
  · exact .bind (.mapM _ fun v => Regime.display v) fun _ => .pure _

lemma steady_render : render.Steady := fun h _ =>
  .after (Regime.display _) fun source => follows_signalOutput h.out_normal (h.markup _ _ _ source)

lemma steady_set : set.Steady := by
  intro G p out r r' h ctx
  refine .of_lockstep _ ?_
  unfold set
  induction ctx.rawArgs with
  | nil => exact .pure _
  | cons e rest ih => exact .bind (h.evalStatement e ctx.site) fun found => .ite ih (lockstep_fail _ _)

lemma steady_includePassage : includePassage.Steady := by
  intro G p out r r' h ctx
  unfold includePassage
  split
  · exact follows_signalOutput h.out_normal (h.passage _ _)
  · exact .of_lockstep _ (lockstep_fail _ _)

/-! Conditions and loops. -/

lemma follows_renderBranch (h : Fellows G p out r r') (ctx : Context) (body : Option (List Template)) :
    G.Follows p (Leaves out) (renderBranch r ctx body) (renderBranch r' ctx body) := by
  cases body with
  | none => exact .of_lockstep _ (.pure _)
  | some templates => exact follows_signalOutput h.out_normal (h.nodes _ templates)

lemma follows_chooseBranch (h : Fellows G p out r r') (ctx : Context) (chain : List Segment) :
    G.Follows p (Leaves out) (chooseBranch r ctx chain) (chooseBranch r' ctx chain) := by
  induction chain with
  | nil => exact .of_lockstep _ (.pure _)
  | cons s rest ih =>
    unfold chooseBranch
    refine .ite (follows_renderBranch h ctx s.body) ?_
    cases segmentArgs s with
    | nil => exact .of_lockstep _ (.throw _)
    | cons cond others =>
      exact .after (h.eval cond _) fun v => .ite (follows_renderBranch h ctx s.body) ih

lemma steady_ifChain : ifChain.Steady := by
  intro G p out r r' h ctx
  have hchoose : ∀ cond, G.Follows p (Leaves out)
      (do if (← r.eval cond ctx.site).isTruthy then renderBranch r ctx ctx.content
          else chooseBranch r ctx ctx.chain)
      (do if (← r'.eval cond ctx.site).isTruthy then renderBranch r' ctx ctx.content
          else chooseBranch r' ctx ctx.chain) :=
    fun cond => .after (h.eval cond _) fun v => .ite (follows_renderBranch h ctx _) (follows_chooseBranch h ctx _)
  have hfirst := Regime.Follows.after (lockstep_firstArg ctx "a condition") hchoose
  exact .ite (.after (lockstep_fail _ _) fun _ => hfirst) hfirst

lemma lockstep_matchesAny (h : Fellows G p out r r') (site : Site) (subject : Value) (candidates : List ExprSource) :
    G.Lockstep p (matchesAny r site subject candidates) (matchesAny r' site subject candidates) := by
  induction candidates with
  | nil => exact .pure _
  | cons e rest ih => exact .bind (h.eval e site) fun v => .ite (.pure _) ih

lemma follows_chooseCase (h : Fellows G p out r r') (ctx : Context) (subject : Value) (chain : List Segment) :
    G.Follows p (Leaves out) (chooseCase r ctx subject chain) (chooseCase r' ctx subject chain) := by
  induction chain with
  | nil => exact .of_lockstep _ (.pure _)
  | cons s rest ih =>
    unfold chooseCase
    exact .ite (follows_renderBranch h ctx s.body)
      (.after (lockstep_matchesAny h _ subject _) fun found => .ite (follows_renderBranch h ctx s.body) ih)

lemma steady_switchChain : switchChain.Steady := by
  intro G p out r r' h ctx
  have hchoose : G.Follows p (Leaves out)
      (do let subject ← firstArg ctx "a value to match"; chooseCase r ctx (← r.eval subject ctx.site) ctx.chain)
      (do let subject ← firstArg ctx "a value to match"; chooseCase r' ctx (← r'.eval subject ctx.site) ctx.chain) :=
    .after (lockstep_firstArg ctx _) fun subject => .after (h.eval subject _) fun v => follows_chooseCase h ctx v _
  unfold switchChain
  refine .ite (.after (lockstep_fail _ _) fun _ => ?_) ?_
  · exact .ite (.after (lockstep_fail _ _) fun _ => hchoose) hchoose
  · exact .ite (.after (lockstep_fail _ _) fun _ => hchoose) hchoose

lemma steady_orphan (head : String) : (orphan head).Steady := fun _ ctx => .of_lockstep _ (lockstep_fail ctx _)

lemma lockstep_loopBody (h : Fellows G p out r r') (ctx : Context) (templates : List Template) (captures : Captures) :
    G.Lockstep p (r.loopBody ctx templates captures) (r'.loopBody ctx templates captures) :=
  Regime.inLoop (h.inner _ templates)

lemma tooManyIterations_eq (h : Fellows G p out r r') (ctx : Context) :
    tooManyIterations r' ctx = tooManyIterations r ctx := by
  unfold tooManyIterations
  rw [h.setting_eq]

lemma lockstep_repeatWhile (h : Fellows G p out r r') (ctx : Context) (cond : ExprSource)
    (more : Nat) : G.Lockstep p (repeatWhile r ctx cond more) (repeatWhile r' ctx cond more) := by
  induction more with
  | zero =>
    refine .bind (h.eval cond _) fun v => ?_
    rw [tooManyIterations_eq h]
    exact .ite (.throw _) (.pure _)
  | succ more ih =>
    exact .bind (h.eval cond _) fun v =>
      .ite (.bind (lockstep_loopBody h ctx _ _) fun s => .ite (.pure _) ih) (.pure _)

lemma steady_whileLoop : whileLoop.Steady := by
  intro G p out r r' h ctx
  refine .of_lockstep _ ?_
  unfold whileLoop
  rw [h.setting_eq]
  exact .bind (lockstep_firstArg ctx _) fun cond => lockstep_repeatWhile h ctx cond _

lemma lockstep_repeatFor (h : Fellows G p out r r') (ctx : Context) (binding : String) (items : List Value) :
    G.Lockstep p (repeatFor r ctx binding items) (repeatFor r' ctx binding items) := by
  induction items with
  | nil => exact .pure _
  | cons item rest ih =>
    refine .bind (Regime.modifyHeap fun heap => heap.modifyObject _ _) fun _ => ?_
    exact .bind (lockstep_loopBody h ctx _ _) fun s => .ite (.pure _) ih

lemma steady_forLoop : forLoop.Steady := by
  intro G p out r r' h ctx
  refine .of_lockstep _ ?_
  unfold forLoop
  cases ctx.args with
  | list args => exact lockstep_fail _ _
  | iteration binding iterable =>
    rw [h.setting_eq, tooManyIterations_eq h]
    let B := G.bond (r.env ctx.site.temp) p.depth p.loops
    have hitems : ∀ v, B.Lockstep 0 (loopItems v) (loopItems v) := by
      intro v
      unfold loopItems
      cases v with
      | object ref => exact .bind B.heap fun heap => B.pairs _
      | _ => exact B.iterate _
    exact .bind (h.eval iterable _) fun v => .bind (Alike.runSource _ _ (hitems v)) fun items =>
      .ite (.bind (.throw _) fun _ => lockstep_repeatFor h ctx binding items) (lockstep_repeatFor h ctx binding items)

lemma steady_jump (s : Signal) : (jump s).Steady := fun _ _ => .of_lockstep _ (.pure _)

/-! Regions, links and inputs. -/

lemma steady_later : later.Steady := by
  intro G p out r r' h ctx
  refine .of_lockstep _ (Regime.bind_get fun w w' hw => ?_)
  rw [hw.heap_eq]
  exact .bind (Regime.createElement _) fun span => .bind (Regime.setAttribute _ _ _) fun _ =>
    .bind (Regime.append _ _) fun _ => .bind (Regime.addCallback _) fun id =>
      .bind (Regime.modifyDocument _) fun _ => .pure _

lemma follows_placeEach (h : Fellows G p out r r') (ctx : Context) (placement : Placement) (targets : List Nat) :
    G.Follows p (Leaves out) (placeEach r ctx placement targets) (placeEach r' ctx placement targets) := by
  induction targets with
  | nil => exact .of_lockstep _ (.pure _)
  | cons target rest ih =>
    refine .after (Regime.createElement _) fun holder => .after (Regime.modifyDocument _) fun _ => ?_
    refine .bind (h.nodes _ _) (fun s => ?_) fun s w hs _ => ?_
    · cases s with
      | normal => exact ih
      | breakLoop | continueLoop => exact .of_lockstep _ (.pure _)
    · cases s with
      | normal => exact absurd hs h.out_normal
      | breakLoop | continueLoop => exact ⟨_, rfl, hs⟩

lemma steady_place (placement : Placement) : (place placement).Steady := by
  intro G p out r r' h ctx
  unfold place
  split
  · refine .after Regime.stage fun s => ?_
    split
    · exact .of_lockstep _ (lockstep_fail _ _)
    · exact follows_placeEach h ctx placement _
  · exact .of_lockstep _ (lockstep_fail _ _)

lemma steady_redoable : redoable.Steady := by
  intro G p out r r' h ctx
  unfold redoable
  split
  · refine .after (Regime.createElement _) fun span => .after (Regime.setAttribute _ _ _) fun _ =>
      .after (Regime.setAttribute _ _ _) fun _ => .after (Regime.append _ _) fun _ =>
        .after (Regime.addCallback _) fun id => .after (Regime.modifyStage fun _ => {}) fun _ => ?_
    exact follows_signalOutput h.out_normal (h.nodes _ _)
  · exact .of_lockstep _ (lockstep_fail _ _)

lemma steady_redo : redo.Steady := fun h _ =>
  .of_lockstep _ (.bind (.forM _ fun v => .bind (Regime.display v) fun name => h.trigger name) fun _ => .pure _)

lemma lockstep_bindInput (input : Nat) (target : ExprSource) (event : String) :
    G.Keeps p (bindInput ctx input target event) :=
  .bind (Regime.addCallback _) fun _ => Regime.subscribe _ _ _

lemma drawing_linkTarget (values : List Value) : Drawing (linkTarget? values) := by
  unfold linkTarget?
  split
  · exact .pure _
  · exact .pure _
  · exact .pure _
  · exact .bind (.display _) fun _ => .pure _

lemma drawing_setAttribute? (node : Nat) (name : String) (value : Option String) :
    Drawing (setAttribute? node name value) := by
  cases value with
  | none => exact .pure _
  | some value => exact .setAttribute node name value

lemma steady_link : link.Steady := by
  intro G p out r r' h ctx
  refine .of_lockstep _ ?_
  unfold link
  cases ctx.values with
  | nil => exact lockstep_fail _ _
  | cons first others =>
    exact .bind (Regime.display first) fun label => .bind (Regime.drawing (drawing_linkTarget others)) fun passage =>
      .bind (Regime.createElement _) fun a => .bind (Regime.setAttribute _ _ _) fun _ =>
        .bind (Regime.drawing (drawing_setAttribute? _ _ _)) fun _ => .bind (Regime.drawing (.create _)) fun _ =>
          .bind (Regime.append _ _) fun _ => .bind (Regime.append _ _) fun _ =>
            .bind (Regime.addCallback _) fun _ => .bind (Regime.subscribe _ _ _) fun _ => .pure _

lemma lockstep_secondText (h : Fellows G p out r r') (ctx : Context) :
    G.Lockstep p (secondText? r ctx) (secondText? r' ctx) := by
  unfold secondText?
  split
  · exact .bind (h.eval _ _) fun v => .map (Regime.display v)
  · exact .pure _

lemma steady_checkbox : checkbox.Steady := by
  intro G p out r r' h ctx
  refine .of_lockstep _ ?_
  refine .bind (lockstep_firstArg ctx _) fun target => .bind (h.eval target _) fun v =>
    .bind (lockstep_secondText h ctx) fun label => .bind (Regime.createElement _) fun wrapper =>
      .bind (Regime.createElement _) fun input => .bind (Regime.setAttribute _ _ _) fun _ => ?_
  refine .ite (.bind (Regime.setAttribute _ _ _) fun _ => ?_) ?_ <;>
    exact .bind (Regime.append _ _) fun _ => .bind (Regime.drawing (.appendText _ _)) fun _ =>
      .bind (Regime.append _ _) fun _ =>
      .bind (lockstep_bindInput ctx input target "change") fun _ => .pure _

lemma steady_textInput : textInput.Steady := by
  intro G p out r r' h ctx
  refine .of_lockstep _ ?_
  refine .bind (lockstep_firstArg ctx _) fun target => .bind (h.eval target _) fun current =>
    .bind (lockstep_secondText h ctx) fun placeholder => .bind (Regime.createElement _) fun input =>
      .bind (Regime.setAttribute _ _ _) fun _ => ?_
  refine .ite (.bind (Regime.display _) fun s => .bind (Regime.setAttribute _ _ _) fun _ => ?_) ?_ <;>
    exact .bind (Regime.drawing (drawing_setAttribute? _ _ _)) fun _ => .bind (Regime.append _ _) fun _ =>
      .bind (lockstep_bindInput ctx input target "input") fun _ => .pure _

lemma lockstep_tempNames (args : List ExprSource) : G.Keeps p (tempNames ctx args) := by
  induction args with
  | nil => exact .pure _
  | cons e rest ih =>
    unfold tempNames
    dsimp only
    split
    · exact .bind ih fun _ => .pure _
    · exact lockstep_fail _ _

lemma steady_punt : punt.Steady := fun _ ctx =>
  .of_lockstep _ (.bind (lockstep_tempNames ctx _) fun _ => .bind (Regime.modifyStage fun _ => {}) fun _ => .pure _)

lemma steady_builtins : ∀ d ∈ builtins, d.handler.Steady := by
  simp only [builtins, List.forall_mem_cons]
  exact ⟨steady_unnamed, steady_print, steady_render, steady_set, steady_includePassage, steady_ifChain,
    steady_orphan _, steady_orphan _, steady_switchChain, steady_orphan _, steady_orphan _, steady_whileLoop,
    steady_forLoop, steady_jump _, steady_jump _, steady_later, steady_place _, steady_place _,
    steady_place _, steady_redoable, steady_redo, steady_link, steady_checkbox, steady_textInput, steady_punt,
    by simp⟩

end StoryMarkup.Macros
