import StoryMarkup.Proofs.Render.Additions

/-!
Where callbacks come from. Every callback that rendering adds is made by a task that it comes to.
-/
namespace StoryMarkup.Render

open Markup (Access ExprSource Location Template)
open Script (Expr Scope Value)

variable {ε α : Type}
variable {site : Site} {m : Aspect} {K : Nat × Callback → Prop} {spot : Spot}

section Accounts

variable (setting : Setting) (defs : Array Definition)

def Account (levels : Nat) (t : Task) (w : World) (s : Standing) (p : Nat × Callback) : Prop :=
  ∃ rest t' w' s', Comes setting defs levels t w s rest t' w' s' ∧
    (Registers (renderer setting defs rest) t' w' p ∨ Navigates t' w' p)

def Does (m : Aspect) (levels temp : Nat) (t : Task) (x : EStateM ε World α) : Prop :=
  ∀ w s, Adds m [] temp (Account setting defs levels t w s) x w

structure Accountable (m : Aspect) (levels : Nat) (r : Renderer) : Prop where
  renderer_eq : r = renderer setting defs levels
  nodes : ∀ spot ts, Does setting defs m levels spot.temp (.nodes spot ts) (r.nodes spot ts)
  invoke : ∀ site number name args,
    Does setting defs m levels site.temp (.call site number args) (r.invoke site number name args)

def Handler.Works (handler : Handler) (m : Aspect) (levels : Nat) (r : Renderer) : Prop :=
  ∀ ctx, Does setting defs m levels ctx.site.temp (.use handler ctx) (handler r ctx)

end Accounts

variable {setting : Setting} {defs : Array Definition} {levels temp : Nat} {r : Renderer} {t t' : Task}
  {link : Link} {s : Standing} {w w' : World} {x : EStateM ε World α} {node : Nat} {name : String}
  {attrs : Bindings String} {v : World} {p : Nat × Callback} {para : Option Nat}

lemma applyAttributes_cons (parent : Nat) (element : String) (site : Site)
    (entry : String × ExprSource) (rest : List (String × ExprSource)) :
    applyAttributes r parent element site (entry :: rest) = (do
      let goesOn ← attributeHolds r parent element site entry
      if id goesOn then applyAttributes r parent element site rest else pure ()) := by
  unfold attributeHolds
  rw [applyAttributes]
  simp only [bind_assoc]
  congr 1
  funext found
  cases found <;> simp

namespace Adds

lemma applyAttribute {v : Value} (hnode : m.Fresh node)
    (hK : ∀ event, eventOf? name = some event →
      K (w.host.created + 1, ⟨.call v, site.captures, site.temp, node, false, site.loc⟩)) :
    Adds m [] site.temp K (Render.applyAttribute node name v site) w := by
  unfold Render.applyAttribute
  split
  · exact listen rfl hnode (hK _ ‹_›)
  · exact .pure _
  · exact .pure _
  · exact .pure _
  · exact .drawing (Drawing.setAttribute _ _ _)
  · exact .drawing (Drawing.bind (Drawing.display _) fun _ => Drawing.setAttribute _ _ _)

lemma drawing_startElement (name : String) (attrs : Bindings String) : Drawing (startElement name attrs) :=
  .bind (.createElement _) fun _ => .bind (.forM _ fun _ => .setAttribute _ _ _) fun _ => .pure _

lemma fresh_startElement (hw : m.Before temp w) (hnode : startElement name attrs w = .ok node v) :
    m.Fresh node := by
  rintro rfl
  simp only [startElement, Bind.bind, EStateM.bind, createElement, create] at hnode
  split at hnode
  · cases hnode
    exact Nat.ne_of_gt hw
  · cases hnode

lemma attributeHolds {parent : Nat} {element : String} {entry : String × ExprSource} (hnode : m.Fresh site.container)
    (heval : Adds m [] site.temp K (Renderer.run site (Script.evalSource (r.env site.temp)
    (r.invoke site) entry.2.code)) w) (hK : ∀ event f v, eventOf? entry.1 = some event →
      Renderer.run site (Script.evalSource (r.env site.temp) (r.invoke site) entry.2.code) w = .ok (.ok f) v →
      K (v.host.created + 1, ⟨.call f, site.captures, site.temp, site.container, false, site.loc⟩)) :
    Adds m [] site.temp K (Render.attributeHolds r parent element site entry) w := by
  refine heval.bind fun found v hv => ?_
  cases found with
  | ok f => exact .bind (applyAttribute hnode fun event hevent => hK event f v hevent hv) fun _ _ _ => .pure _
  | error cause => exact (displayError _ _).bind fun _ _ _ => .pure _

lemma openElement {dyn : Bindings ExprSource} {loc : Location}
    (hattribute : ∀ node w₁ entry v, m.Fresh node → startElement name attrs w = .ok node w₁ →
      Turn (Render.attributeHolds r spot.container name { elementSpot spot node with loc }) id
        dyn.entries w₁ entry v →
      Adds m [] spot.temp K (Render.attributeHolds r spot.container name { elementSpot spot node with loc } entry) v) :
    Adds m [] spot.temp K (Render.openElement r spot name attrs dyn loc) w := fun hw =>
  bind (.drawing (drawing_startElement name attrs)) (fun node w₁ hstart =>
    .bind (.turns (applyAttributes_cons _ _ _) (fun _ => .pure ()) dyn.entries
      (fun entry v hturn => hattribute node w₁ entry v (fresh_startElement hw hstart) hstart hturn)
        fun _ _ _ _ _ _ _ => .pure ()) fun _ _ _ => .bind (.drawing (Drawing.append _ _)) fun _ _ _ => .pure _) hw

end Adds

namespace Accountable

variable (h : Accountable setting defs m levels r)
include h

lemma account (hcall : Calls defs r t w link t' w')
    (hp : Account setting defs levels t' w' (s.after link) p) : Account setting defs levels t w s p := by
  obtain ⟨rest, u, v, s', hcomes, hu⟩ := hp
  rw [h.renderer_eq] at hcall
  exact ⟨rest, u, v, s', .call hcall hcomes, hu⟩

lemma registers (hp : Registers r t w p) : Account setting defs levels t w s p :=
  ⟨levels, t, w, s, .here, .inl (h.renderer_eq ▸ hp)⟩

lemma called (hcall : Calls defs r t w link t' w') (hx : Does setting defs m levels temp t' x) :
    Adds m [] temp (Account setting defs levels t w s) x w' :=
  (hx w' (s.after link)).mono fun _ => h.account hcall

/-! Scripts. -/

lemma run {code : Code} (y : EStateM ε (Script.Machine (Script.Noting Stage)) α)
    (hxy : ∀ I : Script.CallInvariant Stage, I.KeptBy (r.invoke site) →
      StoryMarkup.Lockstep never ((I.bond (r.env site.temp)).rel 0) x y)
    (hcalls : ∀ w, code.calls r site w = Script.callsOf y { w with frames := [], warnings := #[] }) :
    Does setting defs m levels site.temp (.script site code) (Renderer.run site x) := by
  intro w s
  let start : World := { w with frames := [], warnings := #[] }
  let K (calls : List (Script.Call Stage)) (p : Nat × Callback) : Prop :=
    ∃ c ∈ calls, Account setting defs levels (.call site c.id c.args) c.machine s p
  refine .run_of_script fun (hw : m.Before site.temp start) => ?_
  let I : Script.CallInvariant Stage := {
    holds := fun size host calls => ∃ v : World, v.heap.objects.size ≤ size ∧ v.host = host ∧
      m.After [] (K calls) start v
    grow := fun hsize ⟨v, hheap, hv⟩ => ⟨v, Nat.le_trans hheap hsize, hv⟩ }
  have hkept : I.KeptBy (r.invoke site) := by
    rintro number name args u calls ⟨v, hheap, hhost, hv⟩
    have hu : m.After [] (K calls) start u := hv.append (.of_subsides ⟨hheap, hhost ▸ .refl _⟩)
    have hcall := h.invoke site number name args u s (hu.before hw)
    refine ⟨_, Nat.le_refl _, rfl, (hu.mono ?_).append (hcall.mono ?_)⟩
    · rintro p ⟨c, hc, hp⟩
      exact ⟨c, List.mem_append_left _ hc, hp⟩
    · exact fun p hp => ⟨_, List.mem_append_right _ (List.mem_singleton.2 rfl), hp⟩
  have hend : I.holds (ending (x start)).heap.objects.size (ending (x start)).host (Script.callsOf y start) :=
    Script.CallInvariant.holds_ending (hxy I hkept) ⟨start, Nat.le_refl _, rfl, .idle _ _⟩
  obtain ⟨v, hheap, hhost, hv⟩ := hend
  refine (hv.append (.of_subsides ⟨hheap, hhost ▸ .refl _⟩)).mono fun p ⟨c, hc, hp⟩ => ?_
  rw [← hcalls w] at hc
  exact h.account (.call hc) hp

lemma evalSource (site : Site) (text : String) :
    Does setting defs m levels site.temp (.script site (.source text))
      (Renderer.run site (Script.evalSource (r.env site.temp) (r.invoke site) text)) :=
  h.run (Script.evalSource (r.env site.temp) (r.invoke site).noting text)
    (fun I hI => (I.bond (r.env site.temp)).evalSource I.lockstep_callBuiltin (I.lockstep_noting hI) text) fun _ => rfl

lemma evalTree (site : Site) (e : Expr) :
    Does setting defs m levels site.temp (.script site (.tree e))
      (Renderer.run site (Script.eval (r.env site.temp) (r.invoke site) e)) :=
  h.run (Script.eval (r.env site.temp) (r.invoke site).noting e)
    (fun I hI => (I.bond (r.env site.temp)).evalUsing I.lockstep_callBuiltin (I.lockstep_noting hI) e) fun _ => rfl

lemma assignTree (site : Site) (target : Expr) (v : Value) :
    Does setting defs m levels site.temp (.script site (.assignment target v))
      (Renderer.run site (Script.assign (r.env site.temp) (r.invoke site) target v)) :=
  h.run (Script.assign (r.env site.temp) (r.invoke site).noting target v)
    (fun I hI => (I.bond (r.env site.temp)).assign I.lockstep_callBuiltin (I.lockstep_noting hI) target v) fun _ => rfl

lemma callValue (f : Value) (args : List Value) (site : Site) :
    Does setting defs m levels site.temp (.script site (.call f args)) (r.callValue f args site) :=
  h.run (Script.callValue (r.env site.temp) (r.invoke site).noting f args)
    (fun I hI => (I.bond (r.env site.temp)).callUsing I.lockstep_callBuiltin (I.lockstep_noting hI)
    (.inl rfl) f args) fun _ => rfl

lemma resolve (site : Site) (scope : Scope) (base : String) (accesses : List Access) :
    Does setting defs m levels site.temp (.script site (.reference scope base accesses))
      (Renderer.run site (Render.resolve (r.env site.temp) (r.invoke site) scope base accesses)) :=
  h.run (Render.resolve (r.env site.temp) (r.invoke site).noting scope base accesses)
    (fun I hI => (I.bond (r.env site.temp)).resolve I.lockstep_callBuiltin (I.lockstep_noting hI)
    scope base accesses) fun _ => rfl

lemma eval (e : ExprSource) (site : Site) :
    Does setting defs m levels site.temp (.script site (.source e.code)) (r.eval e site) :=
  fun w s => .runSource e.raw (h.evalSource site e.code w s)

lemma evalStatement {e : ExprSource}
    (hcall : ∀ tree, Expr.parse e.code.toList = .ok tree → Calls defs r t w .within (.script site (.tree tree)) v) :
    Adds m [] site.temp (Account setting defs levels t w s) (r.evalStatement e site) v :=
  .parseExpr fun tree htree => (Adds.runSource e.raw (h.called (hcall tree htree) (h.evalTree site tree))).bind
    fun _ _ _ => .pure _

/-! Templates. -/

lemma template_element (spot : Spot) (name : String) (attrs : Bindings String)
    (dyn : Bindings ExprSource) (content : List Template) (loc : Location) :
    Does setting defs m levels spot.temp (.template spot (.element name attrs dyn content loc))
      (renderElement r { spot with mode := spot.mode.nested } name attrs dyn content loc) := by
  intro w s
  rw [renderElement_eq]
  refine .bind (.openElement fun node w₁ entry v hnode hstart hturn => ?_)
    fun node v hv => .ite (fun hraw => .drawing ?_) fun hraw => ?_
  · let site : Site := { elementSpot spot node with loc }
    have hcall : Calls defs r (.template spot (.element name attrs dyn content loc)) w .within
        (.script site (.source entry.2.code)) v := .dynamicAttribute hstart hturn
    exact Adds.attributeHolds hnode (h.called hcall (h.evalSource site entry.2.code)) fun event f u hevent hu =>
      h.registers (.listener hstart hturn hevent hu)
  · refine .bind (.forM _ fun t => ?_) fun _ => .pure _
    cases t with
    | text s => exact .appendText node s
    | _ => exact .pure _
  · exact h.called (.content hv (Bool.eq_false_iff.2 hraw)) (h.nodes (elementSpot spot node) content)

omit h in
lemma placeOutput (site : Site) (output : Output) : Adds m [] temp K (placeOutput site output) w := by
  have hstray : ∀ signal : Signal, Adds m [] temp K
      (do if (← stage).loopDepth > 0 then return signal
          else reportError site.container ⟨.strayLoopSignal signal, site.loc, none, false⟩ : RenderM Signal) w := by
    intro signal
    exact .bind_stage (.ite (fun _ => .pure _) fun _ => .reportError _ _)
  cases output with
  | nothing => exact .pure _
  | text s => exact .drawing (Drawing.bind (Drawing.emitText _ _ _) fun _ => .pure _)
  | node node => exact .bind (.drawing (Drawing.append _ _)) fun _ _ _ => .pure _
  | signal signal =>
    cases signal with
    | normal => exact .pure _
    | breakLoop => exact hstray .breakLoop
    | continueLoop => exact hstray .continueLoop

variable (hmacros : ∀ d ∈ defs, d.handler.Works setting defs m levels r)
include hmacros

lemma useMacro {t : Template} {u : MacroUse} (hu : Uses r spot t w u v) :
    Adds m [] spot.temp (Account setting defs levels (.template spot t) w s)
      (useMacro defs r u.id u.args u.content u.chain { spot with loc := t.loc }) v := by
  unfold Render.useMacro
  cases hd : defs[u.id]? with
  | none => exact .pure _
  | some d =>
    dsimp only
    cases hbody : bodyMistake? d.info u.content with
    | some mistake => exact .reportError _ _
    | none =>
      refine .bind (.catching (.mapM _ fun e v' hturn => ?_)) fun found v₁ hfound => ?_
      · exact h.called (.argument hu hd hbody hturn) (h.eval e { spot with loc := t.loc })
      · cases found with
        | error e => exact .reportError _ _
        | ok values =>
          have hvalues : evalValues r { spot with loc := t.loc } (valueArgs d.info u.args) v = .ok values v₁ := by
            unfold catchingRender at hfound
            cases hx : evalValues r { spot with loc := t.loc } (valueArgs d.info u.args) v with
            | ok a v' =>
              rw [hx] at hfound
              cases hfound
              rfl
            | error e v' =>
              rw [hx] at hfound
              cases hfound
          let ctx : Context := ⟨d.info.name, u.args, values, u.content, u.chain, { spot with loc := t.loc }⟩
          refine .bind (.catching (h.called (.use hu hd hbody hvalues) (hmacros d (Array.mem_of_getElem? hd) ctx)))
            fun done v₂ _ => ?_
          cases done with
          | ok output => exact placeOutput _ output
          | error e =>
            exact (Adds.displayError _ _).bind fun _ _ _ => .ite (fun _ => .throw _) fun _ => .pure _

lemma template (spot : Spot) (t : Template) :
    Does setting defs m levels spot.temp (.template spot t) (renderNode defs r spot t) := by
  intro w s
  cases t with
  | text text loc => exact .drawing (Drawing.bind (Drawing.emitText _ _ _) fun _ => .pure _)
  | element name attrs dyn content loc => exact h.template_element spot name attrs dyn content loc w s
  | link target label loc =>
    unfold renderNode renderLink
    refine .draw_element fun a _ ha => .draw (.setAttribute _ _ _) fun _ _ => .draw (.setAttribute _ _ _) fun _ _ =>
      .draw (.appendText _ _) fun _ _ => .bind_bind (.bind (.listen rfl ha ?_) fun _ _ _ =>
        .drawing (.bind (.append _ _) fun _ => .pure _))
    exact ⟨levels, _, w, s, .here, .inr .link⟩
  | reference scope base accesses body loc =>
    refine .bind (h.called .reference (h.resolve { spot with loc } scope base accesses)) fun found v hv => ?_
    cases found with
    | error e => exact .reportError _ _
    | ok resolved =>
      cases resolved with
      | use number args => exact h.useMacro hmacros (.reference hv)
      | value value =>
        exact .ite (fun _ => .reportError _ _) fun _ => .drawing (.bind (.emitValue _ _ _) fun _ => .pure _)
  | chain segments loc =>
    cases segments with
    | nil => exact .pure _
    | cons head siblings =>
      refine .bind_get ?_
      cases hfound : r.setting.findMacro? w.heap head.name with
      | none => exact Adds.reportError _ _
      | some found => exact h.useMacro hmacros (.chain hfound)
  | error message sample loc => exact .reportError _ _

lemma item (s : Standing) {t : Template} {rest : List Template}
    (hK : ∀ inside v, itemSpot spot para t rest w = .ok inside v →
      ∀ p, Account setting defs levels (.template inside t) v s p → K p) :
    Adds m [] spot.temp K (renderItem defs r spot para t rest) w := by
  by_cases ht : ∃ text loc, spot.mode = .block ∧ t = .text text loc
  · obtain ⟨text, loc, hmode, rfl⟩ := ht
    unfold renderItem
    rw [hmode]
    exact .bind (.drawing (.blockText _ _ _)) fun _ _ _ => .pure _
  · rw [renderItem_eq fun hmode text loc he => ht ⟨text, loc, hmode, he⟩]
    refine .bind (.drawing (drawing_itemSpot spot para t rest)) fun inside v hv => ?_
    rw [← (itemSpot_eq hv).1]
    exact ((h.template hmacros inside t v s).mono (hK inside v hv)).bind fun _ _ _ => .pure _

lemma sequence (s : Standing) {ts : List Template}
    (hK : ∀ {paragraph' t others v inside v'}, Arrives defs r spot para ts w paragraph'
      (t :: others) v → itemSpot spot paragraph' t others v = .ok inside v' →
      ∀ p, Account setting defs levels (.template inside t) v' s p → K p) :
    Adds m [] spot.temp K (renderFrom defs r spot para ts) w := by
  induction ts generalizing para w with
  | nil =>
    unfold renderFrom
    cases spot.mode <;> exact .pure _
  | cons t rest ih =>
    rw [renderFrom_cons]
    refine (h.item hmacros s fun inside v hv => hK (.here para (t :: rest) w) hv).bind
      fun (signal, paragraph') v hv => ?_
    refine .ite (fun hnormal => ?_) fun _ => .pure _
    rw [eq_of_beq hnormal] at hv
    exact ih fun harrives => hK (.next hv harrives)

omit hmacros in
lemma setting_eq : r.setting = setting := by
  rw [h.renderer_eq]
  cases levels <;> rfl

lemma renderNodes (spot : Spot) (ts : List Template) :
    Does setting defs m (levels + 1) spot.temp (.nodes spot ts) (renderNodes defs r spot ts) := by
  intro w s
  unfold Render.renderNodes
  refine .bind_stage (.ite (fun _ => .pure _) fun hrec => .ite (fun _ => ?_) fun hdepth => .nested _ ?_)
  · exact (Adds.modifyStage (.of_redrawn (.refl _) rfl rfl rfl)).bind fun _ _ _ => .reportError _ _
  · rw [renderSequence_eq]
    refine h.sequence hmacros s fun {_ _ _ _ _ _} harrives hspot p hp => ?_
    rw [h.setting_eq] at hdepth
    rw [h.renderer_eq] at harrives
    obtain ⟨rest, t', w', s', hcomes, ht'⟩ := hp
    exact ⟨rest, t', w', s',
      .item (Bool.eq_false_iff.2 hrec) (Nat.lt_of_not_le hdepth) harrives hspot hcomes, ht'⟩

omit h in
lemma invokeMacro (site : Site) (number : Nat) (name : String) (args : List Value) :
    Does setting defs m (levels + 1) site.temp (.call site number args)
      (invokeMacro defs r site number name args) := by
  intro w s
  unfold Render.invokeMacro
  cases hd : defs[number]? with
  | none => exact .throw _
  | some d =>
    let ctx : Context := ⟨d.info.name, .list [], args, none, [], site⟩
    refine ((hmacros d (Array.mem_of_getElem? hd) ctx w s).mono ?_).around (.refl w) ?_
    · rintro p ⟨rest, t', w', s', hcomes, ht'⟩
      exact ⟨rest, t', w', s', .invoke hd hcomes, ht'⟩
    · dsimp only
      cases d.handler r ctx w with
      | ok output v =>
        cases output with
        | signal signal => cases signal <;> exact .refl v
        | _ => exact .refl v
      | error e v => exact .refl v

end Accountable
end StoryMarkup.Render
