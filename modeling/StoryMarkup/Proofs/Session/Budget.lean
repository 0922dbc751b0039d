import StoryMarkup.Proofs.Render.Requests
import StoryMarkup.Session

/-! The recursion budget of a session: every operation gives back what it took of the depth. -/
namespace StoryMarkup

open Markup (Template)
open Render
open Script (Value)

/-- Depths within the limit, at which output is held back only above the ground. -/
def Render.Regime.bounded (config : Config) (hlimit : 1 ≤ config.recursionLimit) : Regime where
  config
  kept := fun d recovering => d ≤ config.recursionLimit ∧ (recovering = true → 0 < d)
  deeper := fun _ hlt => ⟨hlt, fun h => by simp at h⟩
  cut := fun h hle => ⟨h.1, fun _ => Nat.lt_of_lt_of_le hlimit hle⟩
  left := fun h b => ⟨h.1, fun hb => by simp at hb; omega⟩

def Render.Request.deepest (limit : Nat) : Request → Nat
  | .nodes _ _ w => if w.host.recovering || limit ≤ w.host.depth then w.host.depth else w.host.depth + 1
  | .invoke _ _ _ _ w => w.host.depth

lemma Render.Request.deepest_le {config : Config} {hlimit : 1 ≤ config.recursionLimit} {q : Request}
    (h : (Regime.bounded config hlimit).kept q.world.host.depth q.world.host.recovering) :
    q.deepest config.recursionLimit ≤ config.recursionLimit := by
  have hle : q.world.host.depth ≤ config.recursionLimit := h.1
  cases q with
  | invoke site id name args w => exact hle
  | nodes spot ts w =>
    simp only [deepest]
    split
    · exact hle
    · rename_i hnot
      rw [Bool.or_eq_true, not_or, decide_eq_true_eq] at hnot
      exact Nat.lt_of_not_le hnot.2

namespace Session

inductive Operation where
  | goTo (passage : String)
  | render (container temp : Nat) (mode : NewlineMode) (captures : Captures) (ts : List Template)
  | renderPassage (container temp : Nat) (mode : NewlineMode) (captures : Captures) (name : String)
  | fire (callback : Nat) (event : Event)
  | trigger (name : String)
  | click (node : Nat)
  | check (node : Nat) (checked : Bool)
  | input (node : Nat) (text : String)
  | advance (time : Nat)

def perform (s : Session) : Operation → Session
  | .goTo passage => s.goTo passage
  | .render container temp mode captures ts => s.render container temp mode captures ts
  | .renderPassage container temp mode captures name => s.renderPassage container temp mode captures name
  | .fire callback event => s.fire callback event
  | .trigger name => s.trigger name
  | .click node => (s.click? node).getD s
  | .check node checked => (s.check node checked).2
  | .input node text => (s.input node text).2
  | .advance time => s.advance time

def dispatch (r : Renderer) (node : Nat) (listener : String) (event : Event) : RenderM Unit := do
  match (← Render.stage).document.listener? node listener with
  | some id => Render.fire r id event
  | none => return

def Operation.action (op : Operation) (r : Renderer) : RenderM Unit :=
  match op with
  | .goTo passage => inPass (Render.goTo r passage)
  | .render container temp mode captures ts =>
    inPass (finish container (r.nodes { temp, container, mode, captures } ts))
  | .renderPassage container temp mode captures name =>
    inPass (finish container (r.passage { temp, container, mode, captures } name))
  | .fire callback event => Render.fire r callback event
  | .trigger name => Render.trigger r name
  | .click node => dispatch r node "click" .click
  | .check node checked => do
    Render.modifyDocument fun d =>
      if checked then d.setAttribute node "checked" "" else d.removeAttribute node "checked"
    dispatch r node "change" (.change checked)
  | .input node text => do
    Render.modifyDocument fun d => d.setAttribute node "value" text
    dispatch r node "input" (.input text)
  | .advance time => do runTimers r r.setting.config.maxLoopIterations (← tick time)

lemma run_dispatch (s : Session) (node : Nat) (listener : String) (event : Event) :
    s.run (fun r => dispatch r node listener event) = (s.dispatch? node listener event).getD s := by
  obtain ⟨setting, defs, world⟩ := s
  have hstep : ∀ r, dispatch r node listener event world =
      (match world.host.document.listener? node listener with
        | some id => Render.fire r id event
        | none => pure () : RenderM Unit) world := fun _ => rfl
  simp only [run, hstep, dispatch?, document, Session.stage]
  cases world.host.document.listener? node listener <;> rfl

lemma run_modifyDocument (s : Session) (f : Document → Document) (x : Renderer → RenderM Unit) :
    s.run (fun r => do Render.modifyDocument f; x r) = (s.modifyDocument f).run x := rfl

lemma perform_eq_run (s : Session) (op : Operation) : s.perform op = s.run op.action := by
  cases op with
  | goTo passage | render container temp mode captures ts => rfl
  | renderPassage container temp mode captures name | fire callback event | trigger name => rfl
  | click node => exact (run_dispatch s node "click" .click).symm
  | check node checked =>
    change _ = s.run fun r => do Render.modifyDocument _; dispatch r node "change" (.change checked)
    rw [run_modifyDocument, run_dispatch]
    simp only [perform, check]
    cases dispatch? _ node "change" (.change checked) <;> rfl
  | input node text =>
    change _ = s.run fun r => do Render.modifyDocument _; dispatch r node "input" (.input text)
    rw [run_modifyDocument, run_dispatch]
    simp only [perform, input]
    cases dispatch? _ node "input" (.input text) <;> rfl
  | advance time =>
    obtain ⟨setting, defs, world⟩ := s
    simp [perform, advance, run, Operation.action]

section Lockstep

variable {G : Regime} {p : Footing} {r r' : Renderer} (h : Fellows G p (fun _ => False) r r')
include h

lemma lockstep_dispatch (node : Nat) (listener : String) (event : Event) :
    G.Lockstep p (dispatch r node listener event) (dispatch r' node listener event) := by
  refine .bind Regime.stage fun s => ?_
  cases s.document.listener? node listener with
  | none => exact .pure _
  | some id => exact h.fire id event

omit h in
lemma lockstep_tick (time : Nat) : G.Keeps p (tick time) := by
  refine .rigid fun w w' hw => ?_
  refine .of_ok ?_ (hw.set_host {})
  simp only [tick, hw.host_eq]
  rfl

lemma lockstep_runTimers (rounds : Nat) (due : List Nat) :
    G.Lockstep p (runTimers r rounds due) (runTimers r' rounds due) := by
  have hdue : ∀ due : List Nat, G.Lockstep p (due.forM fun id => Render.fire r id .timer)
      (due.forM fun id => Render.fire r' id .timer) := fun due => .forM due fun id => h.fire id .timer
  induction rounds generalizing due with
  | zero =>
    cases due with
    | nil => exact .pure _
    | cons id rest => exact hdue _
  | succ rounds ih =>
    cases due with
    | nil => exact .pure _
    | cons id rest => exact .bind (hdue _) fun _ => .bind (lockstep_tick 0) fun due => ih due

lemma lockstep_action (op : Operation) : G.Lockstep p (op.action r) (op.action r') := by
  cases op with
  | goTo passage => exact Regime.inPass (h.pass.goTo passage)
  | render container temp mode captures ts => exact Regime.inPass (Regime.finish _ (h.fresh _ ts))
  | renderPassage container temp mode captures name =>
    exact Regime.inPass (Regime.finish _ ((h.pass.passage _ name).lockstep fun _ => id))
  | fire callback event => exact h.fire callback event
  | trigger name => exact h.trigger name
  | click node => exact lockstep_dispatch h node _ _
  | check node checked => exact .bind (Regime.modifyDocument _) fun _ => lockstep_dispatch h node _ _
  | input node text => exact .bind (Regime.modifyDocument _) fun _ => lockstep_dispatch h node _ _
  | advance time =>
    simp only [Operation.action, h.setting_eq]
    exact .bind (lockstep_tick time) fun due => lockstep_runTimers h _ due

end Lockstep

/-- A request that comes up while an operation is performed. -/
def Reaches (s : Session) (op : Operation) (q : Request) : Prop :=
  ∃ first rest, Asks (fun r => op.action r s.world) s.renderer first ∧
    Leads s.setting s.definitions (levels s.setting.config) first rest q

lemma reaches_render (s : Session) (container temp : Nat) (mode : NewlineMode) (captures : Captures)
    (ts : List Template) :
    s.Reaches (.render container temp mode captures ts)
      (.nodes { temp, container, mode, captures } ts
        { s.world with host := { s.world.host with loopDepth := 0 } }) := by
  refine ⟨_, _, asks_of_shown s.world fun v => ?_, .refl _ _⟩
  simp only [Operation.action, inPass, finish]
  rw [nodes_answering]
  rfl

structure AtRest (s : Session) : Prop where
  depth_eq : s.stage.depth = 0
  recovering_eq : s.stage.recovering = false

variable {s : Session} (hdefs : s.definitions = Macros.builtins.toArray)

include hdefs in
lemma steady_definitions : ∀ d ∈ s.definitions, d.handler.Steady := by
  intro d hd
  rw [hdefs] at hd
  exact Macros.steady_builtins d (by simpa using hd)

include hdefs in
lemma AtRest.perform (h : s.AtRest) (hlimit : 1 ≤ s.setting.config.recursionLimit)
    (op : Operation) : (s.perform op).AtRest := by
  let G := Regime.bounded s.setting.config hlimit
  have hself := fellows_renderer (G := G) (steady_definitions hdefs) rfl (levels s.setting.config)
  obtain ⟨setting, defs, w⟩ := s
  -- rendering starts and ends on the ground, where output is not held back
  have hw : G.Abreast ⟨w.frames, w.frames, 0, w.host.loopDepth⟩ w w :=
    ⟨rfl, rfl, h.depth_eq, rfl, Nat.zero_le _, fun hr => (Bool.false_ne_true (h.recovering_eq.symm.trans hr)).elim⟩
  have hend := (lockstep_action (hself _) op w w hw).ends
  rw [perform_eq_run]
  simp only [run]
  generalize op.action (Render.renderer setting defs (levels setting.config)) w = result at hend
  cases result <;> exact ⟨hend.depth_eq, Bool.eq_false_iff.2 fun hr => Nat.lt_irrefl 0 (hend.kept.2 hr)⟩

lemma setting_perform (s : Session) (op : Operation) : (s.perform op).setting = s.setting := by
  rw [perform_eq_run]
  simp only [run]
  split <;> rfl

lemma definitions_perform (s : Session) (op : Operation) : (s.perform op).definitions = s.definitions := by
  rw [perform_eq_run]
  simp only [run]
  split <;> rfl

lemma setting_foldl_perform (s : Session) (ops : List Operation) : (ops.foldl perform s).setting = s.setting := by
  induction ops generalizing s with
  | nil => rfl
  | cons op rest ih => rw [List.foldl_cons, ih, setting_perform]

lemma definitions_foldl_perform (s : Session) (ops : List Operation) :
    (ops.foldl perform s).definitions = s.definitions := by
  induction ops generalizing s with
  | nil => rfl
  | cons op rest ih => rw [List.foldl_cons, ih, definitions_perform]

include hdefs in
lemma AtRest.foldl_perform (h : s.AtRest) (hlimit : 1 ≤ s.setting.config.recursionLimit)
    (ops : List Operation) : (ops.foldl Session.perform s).AtRest := by
  induction ops generalizing s with
  | nil => exact h
  | cons op rest ih =>
    exact ih ((definitions_perform s op).trans hdefs) (h.perform hdefs hlimit op) (by rwa [setting_perform])

include hdefs in
lemma AtRest.deepest_le (h : s.AtRest) (hlimit : 1 ≤ s.setting.config.recursionLimit) {op : Operation} {q : Request}
    (hq : s.Reaches op q) : q.deepest s.setting.config.recursionLimit ≤ s.setting.config.recursionLimit := by
  obtain ⟨first, rest, hasks, hleads⟩ := hq
  let G := Regime.bounded s.setting.config hlimit
  have hsteady := steady_definitions hdefs
  have hfirst : G.Stands 0 first.world := by
    refine hasks.stands (fun p => fellows_renderer hsteady rfl _ p) fun {r'} hr => ?_
    have hw : G.Abreast ⟨s.world.frames, s.world.frames, 0, s.world.host.loopDepth⟩ s.world s.world :=
      ⟨rfl, rfl, h.depth_eq, rfl, Nat.zero_le _, fun hr => (Bool.false_ne_true (h.recovering_eq.symm.trans hr)).elim⟩
    exact Regime.eq_of_matched (lockstep_action (hr _ _) op _ _ hw)
  have hkept : G.kept first.world.host.depth first.world.host.recovering := by
    rw [hfirst.1]
    exact hfirst.2
  exact Request.deepest_le (hleads.kept hsteady rfl hkept)

/-- The recursion budget is always given back: after any operations on a new session the depth is
zero and no output is held back, and whatever comes up in the next operation is rendered within the
limit. -/
theorem depth_bounded_and_given_back (passages : Passages) (config : Config) (hlimit : 1 ≤ config.recursionLimit)
    (constants : Bindings Value) (heap : Script.Heap) (seed : UInt64) (ops : List Operation) :
    let s := ops.foldl perform (start passages config ⟨constants, Macros.builtins.toArray, true⟩ heap seed)
    s.stage.depth = 0 ∧ s.stage.recovering = false ∧
      ∀ op q, s.Reaches op q → q.deepest config.recursionLimit ≤ config.recursionLimit := by
  intro s
  have hsetting : s.setting.config = config := by rw [setting_foldl_perform]; rfl
  have hdefs : s.definitions = Macros.builtins.toArray := definitions_foldl_perform _ ops
  have hrest : s.AtRest := AtRest.foldl_perform rfl ⟨rfl, rfl⟩ hlimit ops
  refine ⟨hrest.depth_eq, hrest.recovering_eq, fun op q hq => ?_⟩
  rw [← hsetting] at hlimit ⊢
  exact hrest.deepest_le hdefs hlimit hq

/-- A passage that includes itself uses up a budget of one level; the next operation has it all
again. -/
theorem depth_given_back_after_self_include : let config : Config := { recursionLimit := 1 }
    let passages := Passages.ofList [⟨"p", "@include(\"p\")", [], 1⟩]
    let constants := Bindings.ofList [("include", Value.macroDef 4 "include")]
    let s := [Operation.goTo "p"].foldl perform (start passages config ⟨constants, Macros.builtins.toArray, true⟩ {} 1)
    let q := Request.nodes { temp := 0, container := 0, mode := .inline } []
      { s.world with host := { s.world.host with loopDepth := 0 } }
    1 ≤ config.recursionLimit ∧ s.stage.depth = 0 ∧ s.stage.recovering = false ∧
      s.Reaches (.render 0 0 .inline [] []) q ∧ q.deepest config.recursionLimit ≤ config.recursionLimit := by
  intro config passages constants s q
  have hreach : s.Reaches (.render 0 0 .inline [] []) q := reaches_render s 0 0 .inline [] []
  obtain ⟨hdepth, hrecovering, hbound⟩ :=
    depth_bounded_and_given_back passages config (Nat.le_refl 1) constants {} 1 [Operation.goTo "p"]
  exact ⟨Nat.le_refl 1, hdepth, hrecovering, hreach, hbound _ q hreach⟩

end Session
end StoryMarkup
