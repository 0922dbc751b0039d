import StoryMarkup.Proofs.Render.Registrations

/-! Passes and macros do what they are to do: the callbacks they add are made by the tasks they come
to. -/
namespace StoryMarkup.Render

open Macros
open Markup (ExprSource Segment Template)
open Script (Value)
variable {m : Aspect} {K : Nat × Callback → Prop} {ctx : Context} {number : Nat} {name : String} {seg : Segment}
  {v : World} (c : Callback) (p : Placement) {temp : Nat} {w : World} {r : Renderer}

lemma Adds.rescope {ε α : Type} {temp' : Nat} {x : EStateM ε World α}
    (htemp : m = .scopes → temp' < w.heap.objects.size) (hx : Adds m [] temp' K x w) : Adds m [] temp K x w := by
  cases m with
  | scopes => exact fun hw => hx ⟨htemp rfl, hw.scopes⟩
  | tables => exact hx

lemma mem_of_lookup {c : Callback} :
    ∀ {callbacks : List (Nat × Callback)}, callbacks.lookup number = some c → (number, c) ∈ callbacks
  | [], h => nomatch h
  | (other, c') :: rest, h => by
    rw [List.lookup_cons] at h
    split at h
    · rename_i he
      cases h
      rw [eq_of_beq he]
      exact List.mem_cons_self
    · exact List.mem_cons_of_mem _ (mem_of_lookup h)

lemma Callback.after_install (number : Nat) (w : World) : m.After [number] K w (c.install number w) := by
  cases m with
  | scopes =>
    refine ⟨Nat.le_of_eq (Array.size_modify ..).symm, fun p hp => .inl ?_⟩
    simp only [Callback.install] at hp
    split at hp
    · exact (List.mem_filter.1 hp).1
    · exact hp
  | tables =>
    change Course [number] w.host (c.install number w).host
    rw [c.host_install]
    split
    · exact .drop .done
    · exact .skip .done

lemma Adds.fire {event : Event}
    (haction : ∀ c, w.host.callbacks.lookup number = some c → w.host.document.isAttached c.anchor = true →
      Adds m [] c.temp K (runAction r c event) (passWorld (c.install number w))) :
    Adds m [number] temp K (fire r number event) w := by
  intro hw
  cases hc : w.host.callbacks.lookup number with
  | none =>
    rw [fire_absent hc]
    exact .idle _ _
  | some c =>
    cases hanchor : w.host.document.isAttached c.anchor with
    | true =>
      have hinstall : m.After [number] K w (c.install number w) := c.after_install number w
      rw [fire_eq r event hc hanchor]
      exact hinstall.append (((haction c hc hanchor).inPass.bind fun _ _ _ => .modifyScope _ _)
        (hinstall.before (hw.scope (mem_of_lookup hc))))
    | false =>
      rw [fire_detached hc hanchor]
      cases m with
      | scopes => exact ⟨Nat.le_refl _, fun p hp => .inl (List.mem_filter.1 hp).1⟩
      | tables => exact Course.drop .done

lemma Adds.trigger
    (hfire : ∀ number v, Turn (fun n => Render.fire r n (.trigger name)) (fun _ => true)
      ((w.host.redoables.get? name).getD []) w number v → Adds m [number] temp K (Render.fire r number (.trigger name)) v) :
    Adds m [] temp K (Render.trigger r name) w := by
  have hfired := Adds.firings (w.host.listed name) hfire
  cases m with
  | scopes =>
    refine .bind_stage (Adds.bind hfired fun _ v _ _ => ?_)
    obtain ⟨-, hcallbacks, -⟩ := v.host.settled_eq name
    exact ⟨Nat.le_refl _, fun _ hp => .inl (hcallbacks ▸ hp)⟩
  | tables =>
    intro hw
    change Course [] w.host (ending (Render.trigger r name w)).host
    rw [host_trigger]
    exact .trigger name (hfired hw) .done

namespace Adds

variable {temp : Nat} {r : Renderer} {w : World}

/-! The parts of macros. -/

lemma leavePassage (name : String) : Adds m [] temp K (leavePassage name) w :=
  .bind_get (.bind_stage (.bind (.newScope _) fun _ _ _ => .bind (.modifyStage (.leave _ name)) fun _ _ _ => .pure _))

lemma firstArg (ctx : Context) (what : String) {β : Type} {f : ExprSource → RenderM β}
    (hf : ∀ e others, ctx.rawArgs = e :: others → Adds m [] temp K (f e) w) :
    Adds m [] temp K (firstArg ctx what >>= f) w := by
  unfold Macros.firstArg
  cases hargs : ctx.rawArgs with
  | nil => exact .throw _
  | cons e others =>
    dsimp only
    rw [pure_bind]
    exact hf e others hargs

lemma ifHolds
    (hcondition : ∀ e others, ctx.chain.dropLast.any (·.name == "else") = false → ctx.rawArgs = e :: others →
      Adds m [] temp K (r.eval e ctx.site) w) :
    Adds m [] temp K (ifHolds r ctx) w :=
  .ite (fun _ => .throw_bind _ _) fun hplace => firstArg ctx _ fun e others hargs =>
    (hcondition e others (Bool.eq_false_iff.2 hplace) hargs).bind fun _ _ _ => .pure _

lemma branchHolds
    (hcondition : ∀ e others, (seg.name == "else") = false → segmentArgs seg = e :: others →
      Adds m [] temp K (r.eval e (segmentSite ctx seg)) w) :
    Adds m [] temp K (branchHolds r ctx seg) w := by
  refine .ite (fun _ => .pure _) fun hname => ?_
  cases hargs : segmentArgs seg with
  | nil => exact .throw _
  | cons e others => exact (hcondition e others (Bool.eq_false_iff.2 hname) hargs).bind fun _ _ _ => .pure _

lemma switchSubject
    (hsubject : ∀ e others, ¬ (ctx.chain.filter (·.name == "default")).length > 1 →
      ctx.chain.dropLast.any (·.name == "default") = false → ctx.rawArgs = e :: others →
      Adds m [] temp K (r.eval e ctx.site) w) :
    Adds m [] temp K (switchSubject r ctx) w :=
  .ite (fun _ => .throw_bind _ _) fun hdefaults => .ite (fun _ => .throw_bind _ _) fun hplace =>
    firstArg ctx _ fun e others hargs => hsubject e others hdefaults (Bool.eq_false_iff.2 hplace) hargs

lemma caseHolds {subject : Value}
    (hcandidate : ∀ e v, (seg.name == "default") = false →
      Turn (candidateHolds r (segmentSite ctx seg) subject) (!·) (segmentArgs seg) w e v →
      Adds m [] temp K (r.eval e (segmentSite ctx seg)) v) :
    Adds m [] temp K (caseHolds r ctx subject seg) w :=
  .ite (fun _ => .pure _) fun hname =>
    .turns (matchesAny_cons _ subject) (fun _ => .pure _) (segmentArgs seg)
      (fun e v hturn => (hcandidate e v (Bool.eq_false_iff.2 hname) hturn).bind fun _ _ _ => .pure _)
      fun _ _ _ _ _ _ _ => .pure _

lemma repeatWhile {cond : ExprSource} (n : Nat)
    (hcondition : ∀ v, Turn (fun _ => whileRound r ctx cond) id (List.replicate (n + 1) ()) w () v →
      Adds m [] temp K (r.eval cond ctx.site) v)
    (hbody : ∀ v c v', Turn (fun _ => whileRound r ctx cond) id (List.replicate n ()) w () v →
      r.eval cond ctx.site v = .ok c v' → c.isTruthy = true →
      Adds m [] temp K (r.loopBody ctx ctx.body ctx.site.captures) v') :
    Adds m [] temp K (repeatWhile r ctx cond n) w := by
  induction n generalizing w with
  | zero => exact .bind (hcondition w .first) fun _ _ _ => .ite (fun _ => .throw _) fun _ => .pure _
  | succ n ih =>
    refine .bind (hcondition w .first) fun c v hc => .ite (fun htrue => ?_) fun _ => .pure _
    refine .bind (hbody w c v .first hc htrue) fun signal v' hsignal => .ite (fun _ => .pure _) fun hgo => ?_
    have hround : whileRound r ctx cond w = .ok true v' := by
      simp only [whileRound, Bind.bind, EStateM.bind, hc, htrue, if_true, hsignal]
      simp only [bne, Bool.eq_false_iff.2 hgo]
      rfl
    exact ih (fun u hu => hcondition u (.next hround rfl hu)) fun u c u' hu => hbody u c u' (.next hround rfl hu)

lemma loopItems (env : Script.Env) (raw : String) (site : Site) (v : Value) :
    Adds m [] temp K (Renderer.runSource raw site (loopItems v)) w := by
  unfold Macros.loopItems
  cases v with
  | object ref =>
    exact .runSource raw (.run env (do Script.ScriptM.pairs (Script.fieldsOf (← Script.ScriptM.heap) (.object ref)))
      fun I => .bind (I.bond env).heap fun heap => (I.bond env).pairs _)
  | _ => exact .runSource raw (.run env (Script.ScriptM.iterate _) fun I => (I.bond env).iterate _)

lemma loopOver {iterable : ExprSource} (heval : Adds m [] temp K (r.eval iterable ctx.site) w) :
    Adds m [] temp K (loopOver r ctx iterable) w :=
  heval.bind fun v _ _ => .bind (loopItems (r.env ctx.site.temp) _ _ v) fun _ _ _ =>
    .ite (fun _ => .throw_bind _ _) fun _ => .pure _

lemma forRound {binding : String} {item : Value}
    (hbody : Adds m [] ctx.site.temp K
      (r.nodes { ctx.site.toSpot with captures := ctx.site.captures.extended binding item } ctx.body)
      (loopWorld (bindWorld ctx.site.temp binding item w))) :
    Adds m [] ctx.site.temp K (forRound r ctx binding item) w := by
  refine .bind (.modifyScope ctx.site.temp _) fun _ v hv => .inLoop ?_
  cases hv
  exact hbody

lemma openRegion
    (hK : ∀ span, K (w.host.created + 1, ctx.callback (.render ctx.body span ctx.site.mode.nested) span false)) :
    Adds m [] ctx.site.temp K (openRegion ctx name) w :=
  .draw_element fun span _ hspan => .draw (.setAttribute _ _ _) fun _ _ =>
    .draw (.setAttribute _ _ _) fun _ _ => .draw (.append _ _) fun _ _ =>
      .bind_bind (.bind (.region rfl rfl hspan (hK span)) fun _ _ _ => .pure _)

lemma bindInput {input : Nat} {target : ExprSource} {event : String} (hinput : m.Fresh input)
    (hK : K (w.host.created + 1, ctx.callback (.bind target) input false)) :
    Adds m [] ctx.site.temp K (bindInput ctx input target event) w :=
  .listen rfl hinput hK

lemma tempNames (ctx : Context) (args : List ExprSource) : Adds m [] temp K (tempNames ctx args) w := by
  induction args generalizing w with
  | nil => exact .pure _
  | cons e rest ih =>
    rw [tempNames]
    split
    · exact .bind ih fun _ _ _ => .pure _
    · exact .throw _

end Adds

namespace Accountable

variable {setting : Setting} {defs : Array Definition} {levels temp : Nat} {r : Renderer} {t : Task}
  {link : Link} {s : Standing} {w w' : World} (h : Accountable setting defs m levels r)
include h

lemma markup {spot : Spot} {passage : String} {startLine : Nat} {text : String}
    (hcall : ∀ ts v', templatesOf r passage startLine text v = .ok ts v' →
      Calls defs r t w .within (.nodes spot ts) v') :
    Adds m [] spot.temp (Account setting defs levels t w s) (r.markup spot passage startLine text) v := by
  rw [markup_eq]
  refine .bind (.bind_get ?_) fun ts v' hv => h.called (hcall ts v' hv) (h.nodes spot ts)
  cases r.setting.parse v.heap passage startLine text with
  | ok parsed => exact (Adds.addWarnings _).bind fun _ _ _ => .pure _
  | error e => exact .pure _

lemma passage (spot : Spot) (name : String) :
    Does setting defs m levels spot.temp (.passage spot name) (r.passage spot name) := by
  intro w s
  unfold Renderer.passage
  cases hp : r.setting.passages.get? name with
  | some p =>
    change Adds m [] (passageSpot spot p).temp _ (r.markup (passageSpot spot p) p.name p.startLine p.text) w
    exact h.markup fun ts v' hts => .parsed hp hts
  | none => exact .bind_stage (.reportError _ _)

/-! Passes. -/

lemma goTo (temp : Nat) (name : String) : Does setting defs m levels temp (.visit name) (goTo r name) := by
  intro w s
  rw [goTo_eq]
  refine .bind (.leavePassage name) fun fresh v hv => .finish _ ?_
  refine .rescope (fun _ => ?_) (h.called (.shown hv) (h.passage _ name))
  cases hv
  simp

omit h in
lemma drawing_replaceAnchor : Drawing (replaceAnchor c) :=
  .bind (.createElement _) fun _ => .bind (.modifyDocument fun _ => .replace _ _ _) fun _ => .pure _

lemma runAction (event : Event) :
    Does setting defs m levels c.temp (.action c event) (runAction r c event) := by
  intro w s
  have hnodes : ∀ {w'} container mode body, Calls defs r (.action c event) w .within
      (.nodes (c.spot container mode) body) w' → Adds m [] c.temp (Account setting defs levels (.action c event) w s)
        (finish container (r.nodes (c.spot container mode) body)) w' :=
    fun container mode body hcall => .finish container (h.called hcall (h.nodes (c.spot container mode) body))
  unfold Render.runAction
  cases haction : c.action with
  | render body target mode =>
    exact .bind (.drawing (.modifyDocument fun _ => .clear _ _)) fun _ v hv => hnodes target mode body (.rerender haction hv)
  | navigate passage => exact h.called (.navigate haction) (h.goTo c.temp passage)
  | link body passage mode =>
    cases passage with
    | some passage =>
      have hfollow : ∀ v, runScratch r c body mode w = .ok () v →
          Adds m [] c.temp (Account setting defs levels (.action c event) w s) (Render.goTo r passage) v :=
        fun v hv => h.called (.follow haction hv) (h.goTo c.temp passage)
      cases body with
      | none => exact hfollow w rfl
      | some body =>
        dsimp only
        rw [← bind_assoc]
        refine .bind (.bind (.drawing (.createElement _)) fun scratch v hv => ?_) fun _ v hv => hfollow v hv
        exact hnodes scratch mode body (.scratch haction hv)
    | none =>
      cases body with
      | none =>
        exact .drawing (.bind (.createElement _) fun _ => .bind (.modifyDocument fun _ => .replace _ _ _) fun _ => .pure _)
      | some body =>
        change Adds m [] c.temp _ (do
          let span ← replaceAnchor c
          finish span (r.nodes (c.spot span mode) body)) w
        exact .bind (.drawing (drawing_replaceAnchor c)) fun span v hv => hnodes span mode body (.replace haction hv)
  | call f =>
    refine .bind (.newScope _) fun argument v hv => ?_
    refine .bind (h.called (.listen haction hv) (h.callValue f [.object argument] c.site)) fun found _ _ => ?_
    cases found with
    | ok _ => exact .pure _
    | error cause => exact (Adds.displayError _ _).bind fun _ _ _ => .pure _
  | bind target =>
    dsimp only
    cases hbound : event.bound? with
    | none => exact .pure _
    | some v =>
      refine .finish _ (.bind ?_ fun _ _ _ => .pure _)
      exact .parseExpr fun tree htree =>
        .runSource _ (h.called (.assign haction hbound htree) (h.assignTree c.site tree v))

/-! Macros that print, assign and include. -/

omit h in
lemma lastStatement {site : Site} (args : List ExprSource) (last : Value × Bool)
    (hK : ∀ e v, Turn (r.evalStatement · site) (fun _ => true) args w e v → Adds m [] temp K (r.evalStatement e site) v) :
    Adds m [] temp K (lastStatement r site last args) w := by
  induction args generalizing last w with
  | nil => exact .pure _
  | cons e rest ih =>
    exact (hK e w .first).bind fun found v hv => ih found fun e' v' hturn => hK e' v' (.next hv rfl hturn)

lemma works_unnamed : unnamed.Works setting defs m levels r := by
  intro ctx w s
  unfold unnamed
  cases hargs : ctx.rawArgs with
  | nil =>
    dsimp only
    cases ctx.values.getLast? with
    | none => exact .pure _
    | some v => exact .drawing (drawing_valueOutput v)
  | cons e rest =>
    refine .bind (lastStatement (e :: rest) _ fun e' v hturn => h.evalStatement fun tree htree => ?_) fun last _ _ =>
      .ite (fun _ => .pure _) fun _ => .drawing (drawing_valueOutput _)
    rw [← hargs] at hturn
    exact .statement hturn htree

omit h in
lemma works_print : print.Works setting defs m levels r := by
  intro ctx w s
  unfold print
  split
  · exact .pure _
  · exact .bind (.mapM _ fun v _ _ => .drawing (.display v)) fun _ _ _ => .pure _

lemma works_render : render.Works setting defs m levels r := by
  intro ctx w s
  refine .bind (.drawing (.display _)) fun source v hv => .bind ?_ fun _ _ _ => .pure _
  cases hv
  exact h.markup fun ts v' hts => .text hts

lemma works_set : set.Works setting defs m levels r := fun ctx _ _ =>
  .turns (assignEach_cons ctx) (fun _ => .pure _) ctx.rawArgs
    (fun _ _ hturn => h.evalStatement fun _ htree => .assignment hturn htree) fun _ _ _ _ _ _ _ => .throw _

lemma works_includePassage : includePassage.Works setting defs m levels r := by
  intro ctx w s
  unfold includePassage
  split
  · exact (h.called (.included ‹_›) (h.passage ctx.site.toSpot _)).bind fun _ _ _ => .pure _
  · exact .throw _

/-! Conditions. -/

lemma renderBranch {body : Option (List Template)}
    (hcall : ∀ ts, body = some ts → Calls defs r t w .within (.nodes ctx.site.toSpot ts) v) :
    Adds m [] ctx.site.temp (Account setting defs levels t w s) (renderBranch r ctx body) v := by
  cases body with
  | none => exact .pure _
  | some ts => exact (h.called (hcall ts rfl) (h.nodes ctx.site.toSpot ts)).bind fun _ _ _ => .pure _

lemma works_ifChain : ifChain.Works setting defs m levels r := by
  intro ctx w s
  rw [ifChain_eq]
  refine .bind (.ifHolds fun e others hplace hargs => ?_) fun holds v hv => .ite (fun ht => ?_) fun hf => ?_
  · exact h.called (.condition hplace hargs) (h.eval e ctx.site)
  · rw [ht] at hv
    exact h.renderBranch fun ts hts => .body hv hts
  · rw [Bool.eq_false_iff.2 hf] at hv
    refine .turns (chooseBranch_cons ctx) (fun _ => .pure _) ctx.chain (fun seg v₁ hturn => ?_)
      fun seg holds v₁ v₂ hturn hholds hstop => ?_
    · refine .branchHolds fun e others hname hargs => ?_
      have hcall : Calls defs r (.use ifChain ctx) w .within
          (.script (segmentSite ctx seg) (.source e.code)) v₁ := .branchCondition hv hturn hname hargs
      exact h.called hcall (h.eval e (segmentSite ctx seg))
    · rw [(Bool.not_eq_false' _).mp hstop] at hholds
      exact h.renderBranch fun ts hts => .branch hv hturn hholds hts

lemma works_switchChain : switchChain.Works setting defs m levels r := by
  intro ctx w s
  rw [switchChain_eq]
  refine .bind (.switchSubject fun e others hdefaults hplace hargs => ?_) fun subject v hv => ?_
  · exact h.called (.subject hdefaults hplace hargs) (h.eval e ctx.site)
  · refine .turns (chooseCase_cons ctx subject) (fun _ => .pure _) ctx.chain (fun seg v₁ hturn => ?_)
      fun seg holds v₁ v₂ hturn hholds hstop => ?_
    · refine .caseHolds fun e v₂ hname hcandidate => ?_
      have hcall : Calls defs r (.use switchChain ctx) w .within
          (.script (segmentSite ctx seg) (.source e.code)) v₂ := .candidate hv hturn hname hcandidate
      exact h.called hcall (h.eval e (segmentSite ctx seg))
    · rw [(Bool.not_eq_false' _).mp hstop] at hholds
      exact h.renderBranch fun ts hts => .caseBody hv hturn hholds hts

omit h in
lemma works_orphan (head : String) : (orphan head).Works setting defs m levels r := fun _ _ _ => .throw _

omit h in
lemma works_jump (signal : Signal) : (jump signal).Works setting defs m levels r := fun _ _ _ => .pure _

/-! Loops. -/

lemma works_whileLoop : whileLoop.Works setting defs m levels r := by
  intro ctx w s
  refine .firstArg ctx _ fun e others hargs => .repeatWhile _ (fun v hturn => ?_) fun v c v' hturn hc htrue => .inLoop ?_
  · exact h.called (.whileCondition hargs hturn) (h.eval e ctx.site)
  · exact h.called (.whileBody hargs hturn hc htrue) (h.nodes ctx.site.toSpot ctx.body)

lemma works_forLoop : forLoop.Works setting defs m levels r := by
  intro ctx w s
  cases hargs : ctx.args with
  | list args =>
    have heq : forLoop r ctx = ctx.fail .iterationArgs := by
      simp [forLoop, hargs]
    rw [heq]
    exact .throw _
  | iteration binding iterable =>
    rw [forLoop_eq hargs]
    refine .bind (.loopOver (h.called (.iterable hargs) (h.eval iterable ctx.site))) fun items v hitems =>
      .turns (repeatFor_cons ctx binding) (fun _ => .pure _) items (fun item v₁ hturn => .forRound ?_)
        fun _ _ _ _ _ _ _ => .pure _
    exact h.called (.round hargs hitems hturn)
      (h.nodes { ctx.site.toSpot with captures := ctx.site.captures.extended binding item } ctx.body)

/-! Regions. -/

lemma works_later : later.Works setting defs m levels r := by
  intro ctx w s
  refine .bind_get (.draw_element fun span _ hspan => .draw (.setAttribute _ _ _) fun _ _ =>
    .draw (.append _ _) fun _ _ => .bind_bind (.bind (.postpone rfl hspan ?_) fun _ _ _ => .pure _))
  exact h.registers .later

omit h in
lemma drawing_makeHolder (target : Nat) : Drawing (makeHolder p target) :=
  .bind (.createElement _) fun holder => .bind (.modifyDocument fun d => by
    cases p with
    | atEnd => exact .insert d target holder none
    | atStart => exact .insert d target holder (some 0)
    | instead => exact (Document.Redrawn.clear d target).trans (.insert _ target holder none)) fun _ => .pure _

lemma works_place : (place p).Works setting defs m levels r := by
  intro ctx w s
  have heach : ∀ selector others, ctx.values = .text selector :: others →
      Adds m [] ctx.site.temp (Account setting defs levels (.use (place p) ctx) w s)
        (placeEach r ctx p (w.host.document.query selector)) w := by
    intro selector others hvalues
    refine .turns (placeEach_cons ctx p) (fun _ => .pure _) _ (fun target v hturn => ?_) fun _ _ _ _ _ _ _ => .pure _
    refine .bind (.drawing (drawing_makeHolder p target)) fun holder v' hholder => ?_
    exact h.called (.place hvalues hturn hholder) (h.nodes (elementSpot ctx.site.toSpot holder) ctx.body)
  unfold place
  split
  · refine .bind_stage ?_
    split
    · exact .throw _
    · exact heach _ _ ‹_›
  · exact .throw _

lemma works_redoable : redoable.Works setting defs m levels r := by
  intro ctx w s
  by_cases hname : ∃ name others, ctx.values = .text name :: others
  · obtain ⟨name, others, hvalues⟩ := hname
    rw [redoable_eq hvalues]
    refine .bind (.openRegion fun _ => h.registers .redoable) fun span v hspan => ?_
    exact (h.called (.region hvalues hspan) (h.nodes (elementSpot ctx.site.toSpot span) ctx.body)).bind
      fun _ _ _ => .pure _
  · unfold redoable
    split
    · exact absurd ⟨_, _, ‹_›⟩ hname
    · exact .throw _

lemma works_redo : redo.Works setting defs m levels r := by
  intro ctx w s
  refine .bind (.forM ctx.values fun v w₁ hturn => ?_) fun _ _ _ => .pure _
  refine .bind (.drawing (.display v)) fun name w₁ hname => ?_
  cases hname
  refine .trigger fun number w₂ hturn' => .fire fun c hc hanchor => ?_
  exact h.called (.redo hturn hturn' hc hanchor) (h.runAction c _)

/-! Links and inputs. -/

lemma works_link : Macros.link.Works setting defs m levels r := by
  intro ctx w s
  unfold link
  cases ctx.values with
  | nil => exact .throw _
  | cons first others =>
    exact .draw (.display first) fun label _ => .draw (drawing_linkTarget others) fun passage _ =>
      .draw_element fun a _ ha => .draw (.setAttribute _ _ _) fun _ _ =>
        .draw (drawing_setAttribute? _ _ _) fun _ _ => .draw (.create _) fun text _ =>
        .draw (.append _ _) fun _ _ => .draw (.append _ _) fun _ _ =>
          .bind_bind (.bind (.listen rfl ha (h.registers .link)) fun _ _ _ => .pure _)

lemma secondText {handler : Handler} {e : ExprSource} {others : List ExprSource} {value : Value}
    (hinput : handler = checkbox ∨ handler = textInput) (hargs : ctx.rawArgs = e :: others)
    (hv : r.eval e ctx.site w = .ok value v) :
    Adds m [] ctx.site.temp (Account setting defs levels (.use handler ctx) w s) (secondText? r ctx) v := by
  unfold secondText?
  rw [hargs]
  cases others with
  | nil => exact .pure _
  | cons e' others =>
    exact (h.called (.caption hinput hargs hv) (h.eval e' ctx.site)).bind fun _ _ _ =>
      .drawing (.bind (.display _) fun _ => .pure _)

lemma works_checkbox : checkbox.Works setting defs m levels r := by
  intro ctx w s
  refine .firstArg ctx _ fun e others hargs => ?_
  refine .bind (h.called (.bound (.inl rfl) hargs) (h.eval e ctx.site)) fun value v hv => ?_
  refine .bind (h.secondText (.inl rfl) hargs hv) fun label v' hv' => ?_
  have hK : ∀ input, Account setting defs levels (.use checkbox ctx) w s
      (v'.host.created + 1, ctx.callback (.bind e) input false) := fun _ =>
    h.registers (.input (.inl rfl) hargs hv hv')
  refine .draw (.createElement _) fun wrapper _ => .draw_element fun input _ hinput =>
    .draw (.setAttribute _ _ _) fun _ _ => ?_
  have hplace : ∀ document, Adds m [] ctx.site.temp (Account setting defs levels (.use checkbox ctx) w s) (do
      append wrapper input
      appendText wrapper (label.getD "")
      append ctx.site.container wrapper
      bindInput ctx input e "change"
      return Output.nothing) { v' with host := { v'.host with document } } := fun _ =>
    .draw (.append _ _) fun _ _ => .draw (.appendText _ _) fun _ _ => .draw (.append _ _) fun _ _ =>
      .bind (.bindInput hinput (hK input)) fun _ _ _ => .pure _
  exact .ite (fun _ => .draw (.setAttribute _ _ _) fun _ _ => hplace _) fun _ => hplace _

lemma works_textInput : textInput.Works setting defs m levels r := by
  intro ctx w s
  refine .firstArg ctx _ fun e others hargs => ?_
  refine .bind (h.called (.bound (.inr rfl) hargs) (h.eval e ctx.site)) fun value v hv => ?_
  refine .bind (h.secondText (.inr rfl) hargs hv) fun placeholder v' hv' => ?_
  have hK : ∀ input, Account setting defs levels (.use textInput ctx) w s
      (v'.host.created + 1, ctx.callback (.bind e) input false) := fun _ =>
    h.registers (.input (.inr rfl) hargs hv hv')
  refine .draw_element fun input _ hinput => .draw (.setAttribute _ _ _) fun _ _ => ?_
  have hplace : ∀ document, Adds m [] ctx.site.temp (Account setting defs levels (.use textInput ctx) w s) (do
      setAttribute? input "placeholder" placeholder
      append ctx.site.container input
      bindInput ctx input e "input"
      return Output.nothing) { v' with host := { v'.host with document } } := fun _ =>
    .draw (drawing_setAttribute? _ _ _) fun _ _ => .draw (.append _ _) fun _ _ =>
      .bind (.bindInput hinput (hK input)) fun _ _ _ => .pure _
  exact .ite (fun _ => .draw (.display _) fun _ _ => .draw (.setAttribute _ _ _) fun _ _ => hplace _) fun _ => hplace _

omit h in
lemma works_punt : punt.Works setting defs m levels r := fun ctx _ _ =>
  .bind (.tempNames ctx ctx.rawArgs) fun _ _ _ => .bind (.modifyStage (.of_redrawn (.refl _) rfl rfl rfl)) fun _ _ _ => .pure _

lemma works_builtins : ∀ d ∈ builtins, d.handler.Works setting defs m levels r := by
  simp only [builtins, List.forall_mem_cons]
  exact ⟨h.works_unnamed, works_print, h.works_render, h.works_set, h.works_includePassage, h.works_ifChain,
    works_orphan _, works_orphan _, h.works_switchChain, works_orphan _, works_orphan _, h.works_whileLoop,
    h.works_forLoop, works_jump _, works_jump _, h.works_later, h.works_place _, h.works_place _, h.works_place _,
    h.works_redoable, h.works_redo, h.works_link, h.works_checkbox, h.works_textInput, works_punt, by simp⟩

end Accountable

lemma accountable_renderer {setting : Setting} {defs : Array Definition}
    (hdefinitions : ∀ d ∈ defs, d ∈ builtins) (levels : Nat) :
    Accountable setting defs m levels (renderer setting defs levels) := by
  induction levels with
  | zero => exact ⟨rfl, fun _ _ _ _ => .pure _, fun _ _ _ _ _ _ => .throw _⟩
  | succ levels ih =>
    have hmacros := fun d hd => ih.works_builtins d (hdefinitions d hd)
    exact ⟨rfl, ih.renderNodes hmacros, Accountable.invokeMacro hmacros⟩

end StoryMarkup.Render
