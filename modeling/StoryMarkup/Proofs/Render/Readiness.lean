import StoryMarkup.Proofs.Render.MacroTasks

/-! Wherever a task is begun, the scopes it needs are at hand and the tables are sound. -/
namespace StoryMarkup.Render

open Markup (ExprSource Location Segment Template)
open Script (Value)
variable {w : World} {levels : Nat} {c : Callback} (number : Nat) (name : String)

namespace Captures

lemma get?_cons (v : Value) (rest : Captures) (key : String) :
    Captures.get? ((name, v) :: rest) key = (Captures.get? rest key).or (if key = name then some v else none) := by
  simp only [Captures.get?, List.reverse_cons, List.lookup_append]
  congr 1
  by_cases hkey : key = name
  · simp [hkey]
  · simp [List.lookup_cons, beq_eq_false_iff_ne.2 hkey, hkey]

lemma get?_installFrom (c : Captures) (displaced : List (String × Option Value)) (scope : Bindings Value)
    (key : String) : (installFrom displaced scope c).2.get? key = (c.get? key).or (scope.get? key) := by
  induction c generalizing displaced scope with
  | nil => rfl
  | cons e rest ih =>
    obtain ⟨name, v⟩ := e
    rw [installFrom, ih, get?_cons, Option.or_assoc]
    congr 1
    rw [Bindings.get?_insert]
    by_cases hkey : key = name
    · simp [hkey]
    · simp [hkey]

end Captures

def Callback.Installed (c : Callback) (w : World) : Prop :=
  ∀ name v, c.captures.get? name = some v → (w.heap.object c.temp).get? name = some v

lemma Callback.installed_install (h : c.temp < w.heap.objects.size) :
    c.Installed (passWorld (c.install number w)) := by
  intro name v hv
  change ((w.heap.modifyObject c.temp _).object c.temp).get? name = some v
  rw [Script.Heap.object_modifyObject _ _ h, Captures.install, Captures.get?_installFrom, hv]
  rfl

structure Since (s : Stage) (w : World) : Prop where
  sound : Sound w.host
  later : Later s w.host

namespace Aspect

variable {m : Aspect} {s : Stage} {temp temp' : Nat} {v w : World} {nums : List Nat} {K : Nat × Callback → Prop}

def Lasts (m : Aspect) (s : Stage) (temp : Nat) (w : World) : Prop :=
  match m with
  | .scopes => Ready temp w
  | .tables => Since s w

namespace Lasts

lemma before (hw : m.Lasts s temp w) : m.Before temp w := by
  cases m with
  | scopes => exact hw
  | tables => exact hw.sound.nodes_pos

lemma after (hw : m.Lasts s temp w) (h : m.After nums K w v) : m.Lasts s temp v := by
  cases m with
  | scopes => exact Extends.ready h hw
  | tables => exact ⟨Course.sound h hw.sound, hw.later.trans (Course.later h)⟩

lemma subsides (hw : m.Lasts s temp w) (h : Subsides w v) : m.Lasts s temp v :=
  hw.after (.of_subsides (K := fun _ => True) h)

/-- Entering a pass or a loop, or a level of nesting, touches neither the scopes nor the tables. -/
theorem enter (hw : m.Lasts s temp w) (hheap : w.heap.objects.size ≤ v.heap.objects.size)
    (hdocument : v.host.document = w.host.document) (hcallbacks : v.host.callbacks = w.host.callbacks)
    (hcreated : v.host.created = w.host.created) (hredoables : v.host.redoables =
      w.host.redoables) : m.Lasts s temp v :=
  hw.subsides ⟨hheap, .of_redrawn (hdocument ▸ .refl _) hcallbacks hcreated hredoables⟩

lemma rescope (hw : m.Lasts s temp w) (htemp : m = .scopes → temp' < w.heap.objects.size) : m.Lasts s temp' w := by
  cases m with
  | scopes => exact ⟨htemp rfl, hw.scopes⟩
  | tables => exact hw

end Lasts

end Aspect

def Task.Prepared (m : Aspect) (s : Stage) (t : Task) (w : World) : Prop :=
  match t with
  | .nodes spot _ | .template spot _ | .passage spot _ => m.Lasts s spot.temp w
  | .use _ ctx => m.Lasts s ctx.site.temp w
  | .script site _ | .call site _ _ => m.Lasts s site.temp w
  | .action c _ => m.Lasts s c.temp w ∧ (m = .scopes → c.Installed w)
  | .visit _ => ∃ temp, m.Lasts s temp w

variable {ε α γ : Type} {m : Aspect} {s : Stage} {temp : Nat} {nums : List Nat} {w v : World} {x : EStateM ε World α}
  {t t' : Task} {spot : Spot} {w' : World} (ctx : Context) (e : ExprSource) (site : Site) (subject : Value)

lemma prepared_action (hw : m.Lasts s temp w) {number : Nat} {event : Event}
    (hc : w.host.callbacks.lookup number = some c) :
    (Task.action c event).Prepared m s (passWorld (c.install number w)) := by
  have hscope : m = .scopes → c.temp < w.heap.objects.size := by
    rintro rfl
    exact hw.scopes _ (mem_of_lookup hc)
  have hinstalled : m.Lasts s c.temp (c.install number w) :=
    (hw.rescope hscope).after (c.after_install (K := fun _ => True) number w)
  exact ⟨hinstalled.enter (Nat.le_refl _) rfl rfl rfl rfl, fun hm => Callback.installed_install number (hscope hm)⟩

def Keeps (m : Aspect) (nums : List Nat) (temp : Nat) (x : EStateM ε World α) : Prop :=
  ∀ w, Adds m nums temp (fun _ => True) x w

lemma Keeps.lasts {a : α} (h : Keeps m nums temp x) (hx : x w = .ok a v) (hw : m.Lasts s temp w) :
    m.Lasts s temp v := by
  have hv : m.Lasts s temp (ending (x w)) := hw.after (h w hw.before)
  rwa [hx] at hv

lemma Keeps.drawing {x : RenderM α} (h : Drawing x) : Keeps m [] temp x := fun _ => .drawing h

lemma Does.keeps {setting : Setting} {defs : Array Definition}
    (h : Does setting defs m levels temp t x) : Keeps m [] temp x :=
  fun w => (h w ⟨[], []⟩).mono fun _ _ => trivial

lemma Turn.lasts {f : γ → RenderM α} {goesOn : α → Bool} {items : List γ} {a : γ} (h : Turn f goesOn items w a v)
    {fired : γ → List Nat} (hf : ∀ a, Keeps m (fired a) temp (f a)) (hw : m.Lasts s temp w) : m.Lasts s temp v := by
  induction h with
  | first => exact hw
  | next hfirst _ _ ih => exact ih ((hf _).lasts hfirst hw)

lemma keeps_templatesOf (r : Renderer) (passage : String) (startLine : Nat) (text : String) :
    Keeps m [] temp (templatesOf r passage startLine text) := by
  refine fun w => .bind_get ?_
  cases r.setting.parse w.heap passage startLine text with
  | ok parsed => exact (Adds.addWarnings _).bind fun _ _ _ => .pure _
  | error e => exact .pure _

namespace Accountable

variable {setting : Setting} {defs : Array Definition} {r : Renderer}
  (h : Accountable setting defs m levels r)
include h

/-! The parts of the work between two calls. -/

lemma keeps_eval : Keeps m [] site.temp (r.eval e site) := (h.eval e site).keeps

lemma keeps_attributeHolds (parent : Nat) (element : String) (site : Site) (hnode : m.Fresh site.container)
    (entry : String × ExprSource) : Keeps m [] site.temp (attributeHolds r parent element site entry) := fun w =>
  .attributeHolds hnode ((h.evalSource site entry.2.code).keeps w) fun _ _ _ _ _ => trivial

lemma keeps_openElement (spot : Spot) (name : String) (attributes : Bindings String) (dynamic : Bindings ExprSource)
    (loc : Location) : Keeps m [] spot.temp (openElement r spot name attributes dynamic loc) := fun _ =>
  .openElement fun node _ entry v hnode _ _ => h.keeps_attributeHolds
    _ _ { elementSpot spot node with loc } hnode entry v

lemma keeps_evalStatement : Keeps m [] site.temp (r.evalStatement e site) := fun w =>
  .parseExpr fun tree _ => (Adds.runSource e.raw ((h.evalTree site tree).keeps w)).bind fun _ _ _ => .pure _

lemma keeps_ifHolds : Keeps m [] ctx.site.temp (ifHolds r ctx) := fun w =>
  .ifHolds fun e _ _ _ => h.keeps_eval e ctx.site w

lemma keeps_branchHolds (s : Segment) : Keeps m [] ctx.site.temp (branchHolds r ctx s) := fun w =>
  .branchHolds fun e _ _ _ => h.keeps_eval e (Macros.segmentSite ctx s) w

lemma keeps_switchSubject : Keeps m [] ctx.site.temp (switchSubject r ctx) := fun w =>
  .switchSubject fun e _ _ _ _ => h.keeps_eval e ctx.site w

lemma keeps_candidateHolds (e : ExprSource) :
    Keeps m [] site.temp (candidateHolds r site subject e) := fun w => (h.keeps_eval e site w).bind fun _ _ _ => .pure _

lemma keeps_caseHolds (s : Segment) : Keeps m [] ctx.site.temp (caseHolds r ctx subject s) := fun _ =>
  .caseHolds fun e v _ _ => h.keeps_eval e (Macros.segmentSite ctx s) v

lemma keeps_whileRound (condition : ExprSource) : Keeps m [] ctx.site.temp (whileRound r ctx condition) :=
  fun w => (h.keeps_eval condition ctx.site w).bind fun _ _ _ => .ite
    (fun _ => .bind (.inLoop ((h.nodes _ ctx.body).keeps _)) fun _ _ _ => .pure _) fun _ => .pure _

lemma keeps_loopOver (iterable : ExprSource) : Keeps m [] ctx.site.temp (loopOver r ctx iterable) :=
  fun w => .loopOver (h.keeps_eval iterable ctx.site w)

lemma keeps_forRound (binding : String) (item : Value) :
    Keeps m [] ctx.site.temp (forRound r ctx binding item) := fun _ => .forRound
  ((h.nodes { ctx.site.toSpot with captures := ctx.site.captures.extended binding item } ctx.body).keeps _)

lemma keeps_placeOne (p : Macros.Placement) (target : Nat) :
    Keeps m [] ctx.site.temp (placeOne r ctx p target) := fun _ =>
  .bind (.drawing (drawing_makeHolder p target)) fun holder v _ =>
    (h.nodes (elementSpot ctx.site.toSpot holder) ctx.body).keeps v

lemma keeps_fire (event : Event) : Keeps m [number] temp (fire r number event) := fun _ =>
  .fire fun c _ _ => (h.runAction c event).keeps _

lemma keeps_trigger : Keeps m [] temp (trigger r name) := fun _ =>
  .trigger fun number v _ => h.keeps_fire number _ v

lemma keeps_runScratch (c : Callback) (body : Option (List Template)) (mode : NewlineMode) :
    Keeps m [] c.temp (runScratch r c body mode) := by
  intro w
  cases body with
  | none => exact .pure _
  | some body =>
    exact .bind (.drawing (.createElement _)) fun scratch v _ =>
      .finish scratch ((h.nodes (c.spot scratch mode) body).keeps v)

lemma lasts_uses {t : Template} {u : MacroUse} (hu : Uses r spot t w u v)
    (hw : m.Lasts s spot.temp w) : m.Lasts s spot.temp v := by
  cases hu with
  | reference hresolved => exact (h.resolve { spot with loc := _ } _ _ _).keeps.lasts hresolved hw
  | chain => exact hw

omit h in
lemma holds_calls {I : Script.CallInvariant Stage} {site : Site} (hI : I.KeptBy (r.invoke site)) (code : Code)
    (hw : I.holds w.heap.objects.size w.host []) : ∃ size host, I.holds size host (code.calls r site w) := by
  let B := I.bond (r.env site.temp)
  let start : World := { w with frames := [], warnings := #[] }
  have hall {ε α : Type} {x : EStateM ε World α} {y : EStateM ε (Script.Machine (Script.Noting Stage)) α}
      (hxy : B.Lockstep 0 x y) : ∃ size host, I.holds size host (Script.callsOf y start) :=
    ⟨_, _, Script.CallInvariant.holds_ending hxy hw⟩
  cases code with
  | source text => exact hall (B.evalSource I.lockstep_callBuiltin (I.lockstep_noting hI) text)
  | tree e => exact hall (B.evalUsing I.lockstep_callBuiltin (I.lockstep_noting hI) e)
  | assignment target v => exact hall (B.assign I.lockstep_callBuiltin (I.lockstep_noting hI) target v)
  | call f args => exact hall (B.callUsing I.lockstep_callBuiltin (I.lockstep_noting hI) (.inl rfl) f args)
  | reference scope base accesses =>
    exact hall (B.resolve I.lockstep_callBuiltin (I.lockstep_noting hI) scope base accesses)

lemma lasts_call {site : Site} {code : Code} {c : Script.Call Stage} (hc : c ∈ code.calls r site w)
    (hw : m.Lasts s site.temp w) : m.Lasts s site.temp c.machine := by
  let I : Script.CallInvariant Stage := {
    holds := fun size host calls => (∃ v : World, v.heap.objects.size ≤ size ∧ v.host = host ∧
      m.Lasts s site.temp v) ∧ ∀ c ∈ calls, m.Lasts s site.temp c.machine
    grow := fun hsize ⟨⟨v, hheap, hv⟩, hcalls⟩ => ⟨⟨v, Nat.le_trans hheap hsize, hv⟩, hcalls⟩ }
  have hkept : I.KeptBy (r.invoke site) := by
    rintro number name args u calls ⟨⟨v, hheap, hhost, hv⟩, hcalls⟩
    have hu : m.Lasts s site.temp u := hv.subsides ⟨hheap, hhost ▸ .refl _⟩
    refine ⟨⟨_, Nat.le_refl _, rfl, hu.after ((h.invoke site number name args).keeps u hu.before)⟩, fun c hc => ?_⟩
    obtain hc | hc := List.mem_append.1 hc
    · exact hcalls c hc
    · rw [List.mem_singleton.1 hc]
      exact hu
  obtain ⟨_, _, -, hcalls⟩ := holds_calls hkept code ⟨⟨w, Nat.le_refl _, rfl, hw⟩, fun _ hc => nomatch hc⟩
  exact hcalls c hc

lemma prepared {link : Link} (hcall : Calls defs r t w link t' w') (ht : t.Prepared m s w) :
    t'.Prepared m s w' := by
  cases hcall with
  | dynamicAttribute hstart hturn =>
    have hnode := Adds.fresh_startElement (Aspect.Lasts.before ht) hstart
    exact hturn.lasts (h.keeps_attributeHolds _ _ _ hnode)
      (Keeps.lasts (.drawing (Adds.drawing_startElement _ _)) hstart ht)
  | content hopen hraw =>
    have hready := (h.keeps_openElement _ _ _ _ _).lasts hopen ht
    exact hready
  | reference => exact ht
  | argument hu hd hbody hturn => exact hturn.lasts (fun e => h.keeps_eval e ⟨_, _⟩) (h.lasts_uses hu ht)
  | use hu hd hbody hvalues =>
    exact Keeps.lasts (fun _ => .mapM _ fun e v _ => h.keeps_eval e ⟨_, _⟩ v) hvalues (h.lasts_uses hu ht)
  | statement hturn htree => exact hturn.lasts (fun e => h.keeps_evalStatement e _) ht
  | assignment hturn htree => exact hturn.lasts (fun e => h.keeps_evalStatement e _) ht
  | text hts => exact (keeps_templatesOf _ _ _ _).lasts hts ht
  | included hvalues | condition => exact ht
  | body hif hts => exact (h.keeps_ifHolds _).lasts hif ht
  | branchCondition hif hturn => exact hturn.lasts (h.keeps_branchHolds _) ((h.keeps_ifHolds _).lasts hif ht)
  | branch hif hturn hholds =>
    exact (h.keeps_branchHolds _ _).lasts hholds (hturn.lasts (h.keeps_branchHolds _)
      ((h.keeps_ifHolds _).lasts hif ht))
  | subject => exact ht
  | candidate hsubject hturn hname hcandidate =>
    exact hcandidate.lasts (h.keeps_candidateHolds _ _)
      (hturn.lasts (h.keeps_caseHolds _ _) ((h.keeps_switchSubject _).lasts hsubject ht))
  | caseBody hsubject hturn hholds =>
    exact (h.keeps_caseHolds _ _ _).lasts hholds
      (hturn.lasts (h.keeps_caseHolds _ _) ((h.keeps_switchSubject _).lasts hsubject ht))
  | whileCondition hargs hturn => exact hturn.lasts (fun _ => h.keeps_whileRound _ _) ht
  | whileBody hargs hturn hcondition =>
    have hready := (h.keeps_eval _ _).lasts hcondition (hturn.lasts (fun _ => h.keeps_whileRound _ _) ht)
    exact hready.enter (Nat.le_refl _) rfl rfl rfl rfl
  | iterable => exact ht
  | round hargs hitems hturn =>
    have hready := hturn.lasts (h.keeps_forRound _ _) ((h.keeps_loopOver _ _).lasts hitems ht)
    exact hready.enter (Nat.le_of_eq (Array.size_modify ..).symm) rfl rfl rfl rfl
  | place hvalues hturn hholder =>
    exact Keeps.lasts (.drawing (drawing_makeHolder _ _)) hholder (hturn.lasts (h.keeps_placeOne _ _) ht)
  | region hvalues hopen => exact Keeps.lasts (fun _ => .openRegion fun _ => trivial) hopen ht
  | redo hturn hturn' hc hanchor =>
    have hready := hturn'.lasts (fun n => h.keeps_fire n _)
      (hturn.lasts (fun v _ => .bind (.drawing (.display v)) fun name _ _ => h.keeps_trigger name _) ht)
    exact prepared_action hready hc
  | bound => exact ht
  | caption hinput hargs heval => exact (h.keeps_eval _ _).lasts heval ht
  | call hc => exact h.lasts_call hc ht
  | rerender haction hclear => exact Keeps.lasts (.drawing (.modifyDocument fun _ => .clear _ _)) hclear ht.1
  | replace haction hreplace =>
    exact Keeps.lasts (.drawing (drawing_replaceAnchor _)) hreplace ht.1
  | scratch haction hscratch => exact Keeps.lasts (.drawing (.createElement _)) hscratch ht.1
  | navigate => exact ⟨_, ht.1⟩
  | follow haction hscratch => exact ⟨_, (h.keeps_runScratch _ _ _).lasts hscratch ht.1⟩
  | listen haction hscope => exact Keeps.lasts (fun _ => .newScope _) hscope ht.1
  | assign => exact ht.1
  | parsed hp hts => exact (keeps_templatesOf _ _ _ _).lasts hts ht
  | shown hleave =>
    obtain ⟨temp, hready⟩ := ht
    have hafter := Keeps.lasts (fun _ => .leavePassage _) hleave hready
    refine hafter.rescope fun _ => ?_
    cases hleave
    simp

end Accountable

variable {setting : Setting} {defs : Array Definition}

lemma Arrives.lasts {r : Renderer} (h : Accountable setting defs m levels r)
    (hmacros : ∀ d ∈ defs, d.handler.Works setting defs m levels r) {paragraph paragraph' : Option Nat}
    {ts ts' : List Template} (harrives : Arrives defs r spot paragraph ts w paragraph' ts' w')
    (hw : m.Lasts s spot.temp w) : m.Lasts s spot.temp w' := by
  induction harrives with
  | here => exact hw
  | next hitem _ ih =>
    exact ih (Keeps.lasts (fun w => h.item hmacros ⟨[], []⟩ fun _ _ _ _ _ => trivial) hitem hw)

lemma Comes.prepared (hdefinitions : ∀ d ∈ defs, d ∈ Macros.builtins) {rest : Nat} {place place' : Standing}
    (h : Comes setting defs levels t w place rest t' w' place') (ht : t.Prepared m s w) :
    t'.Prepared m s w' := by
  induction h with
  | here => exact ht
  | call hcall _ ih => exact ih ((accountable_renderer hdefinitions _).prepared hcall ht)
  | @item levels _ _ _ _ _ _ _ _ _ _ _ _ _ _ _ _ harrives hspot _ ih =>
    refine ih ?_
    have hr := @accountable_renderer m setting defs hdefinitions levels
    have harrived := harrives.lasts hr (fun d hd => hr.works_builtins d (hdefinitions d hd))
      (Aspect.Lasts.enter ht (Nat.le_refl _) rfl rfl rfl rfl)
    have hinside := Keeps.lasts (.drawing (drawing_itemSpot _ _ _ _)) hspot harrived
    change m.Lasts s _ _
    rw [(itemSpot_eq hspot).1]
    exact hinside
  | invoke _ _ ih => exact ih ht

end StoryMarkup.Render
