import StoryMarkup.Proofs.Render.Tasks

/-! How rendering is unwound: a fatal error goes up all the way, with nothing else done. -/
namespace StoryMarkup.Render

open Macros hiding link
open Markup (ExprSource Location Template)
open Script (Value)

abbrev Outcome (α : Type) := EStateM.Result RenderError World α

def Outcome.andThen {α β : Type} (x : Outcome α) (f : α → RenderM β) : Outcome β :=
  match x with
  | .ok a w => f a w
  | .error e w => .error e w

lemma bind_eq_andThen {α β : Type} (x : RenderM α) (f : α → RenderM β) (w : World) :
    (x >>= f) w = Outcome.andThen (x w) f := by
  simp only [Bind.bind, EStateM.bind]
  cases x w <;> rfl

def Outcome.unloop {α : Type} : Outcome α → Outcome α
  | .ok a w => .ok a { w with host := { w.host with loopDepth := w.host.loopDepth - 1 } }
  | .error e w => .error e { w with host := { w.host with loopDepth := w.host.loopDepth - 1 } }

lemma inLoop_eq {α : Type} (x : RenderM α) (w : World) : inLoop x w = Outcome.unloop (x (loopWorld w)) := by
  unfold inLoop loopWorld
  dsimp only
  generalize x _ = outcome
  cases outcome <;> rfl

inductive Until {α γ : Type} (f : γ → RenderM α) (goesOn : α → Bool) : List γ → World → List γ → World → Prop
  | now : Until f goesOn items w items w
  | next : f a w = .ok v w₁ → goesOn v = true → Until f goesOn rest w₁ left w₂ → Until f goesOn (a :: rest) w left w₂

lemma Turn.until {α γ : Type} {f : γ → RenderM α} {goesOn : α → Bool} {items : List γ} {w w' : World} {a : γ}
    (h : Turn f goesOn items w a w') : ∃ rest, Until f goesOn items w (a :: rest) w' := by
  induction h with
  | first => exact ⟨_, .now⟩
  | next hf hgo _ ih =>
    obtain ⟨rest, hrest⟩ := ih
    exact ⟨rest, .next hf hgo hrest⟩

lemma Until.eq {α β γ : Type} {f : γ → RenderM α} {goesOn : α → Bool} {g : List γ → RenderM β}
    {stop : γ → α → RenderM β}
    (hcons : ∀ a rest, g (a :: rest) = (do let v ← f a if goesOn v then g rest else stop a v)) {items left : List γ}
    {w w' : World} (h : Until f goesOn items w left w') : g items w = g left w' := by
  induction h with
  | now => rfl
  | next hf hgo _ ih =>
    rw [hcons, ← ih]
    simp [Bind.bind, EStateM.bind, hf, hgo]

variable {setting : Setting} {defs : Array Definition} {r : Renderer}

lemma Until.repeatWhile_eq {ctx : Context} {cond : ExprSource} {items left : List Unit}
    {w w' : World} (h : Until (fun _ => whileRound r ctx cond) id items w left w') :
    repeatWhile r ctx cond items.length w = repeatWhile r ctx cond left.length w' := by
  induction h with
  | now => rfl
  | next hround hgo _ ih =>
    have hholds := hround.trans (congrArg (EStateM.Result.ok · _) hgo)
    rw [List.length_cons, repeatWhile_succ, ← ih]
    simp [Bind.bind, EStateM.bind, hholds]

section Relays

inductive Remaining where
  | nothing
  | rounds (cond : ExprSource) (more : Nat)
  | items (binding : String) (rest : List Value)
  | targets (p : Placement) (rest : List Nat)

def Remaining.resume (r : Renderer) (ctx : Context) : Remaining → Outcome Signal → Outcome Output
  | .nothing, result => result.andThen fun s => return signalOutput s
  | .rounds cond more, result => result.unloop.andThen fun s =>
    if s == .breakLoop then return .nothing else repeatWhile r ctx cond more
  | .items binding rest, result => result.unloop.andThen fun s =>
    if s != .breakLoop then repeatFor r ctx binding rest else return .nothing
  | .targets p rest, result => result.andThen fun s =>
    if s == .normal then placeEach r ctx p rest else return .signal s

inductive Relays (r : Renderer) : Handler → Context → World → Remaining → Spot → List Template → World → Prop
  | text :
    templatesOf r ctx.site.loc.passage ctx.site.loc.line (w.heap.display (ctx.values.headD .undefined)) w = .ok ts w₁ →
    Relays r Macros.render ctx w .nothing ctx.site.toSpot ts w₁
  | included :
    ctx.values = .text name :: others → r.setting.passages.get? name = some p →
    templatesOf r p.name p.startLine p.text w = .ok ts w₁ →
    Relays r includePassage ctx w .nothing (passageSpot ctx.site.toSpot p) ts w₁
  | body :
    ifHolds r ctx w = .ok true w₁ → ctx.content = some ts →
    Relays r ifChain ctx w .nothing ctx.site.toSpot ts w₁
  | branch :
    ifHolds r ctx w = .ok false w₁ → Turn (branchHolds r ctx) (!·) ctx.chain w₁ s w₂ →
    branchHolds r ctx s w₂ = .ok true w₃ → s.body = some ts →
    Relays r ifChain ctx w .nothing ctx.site.toSpot ts w₃
  | caseBody :
    switchSubject r ctx w = .ok v w₁ → Turn (caseHolds r ctx v) (!·) ctx.chain w₁ s w₂ →
    caseHolds r ctx v s w₂ = .ok true w₃ → s.body = some ts →
    Relays r switchChain ctx w .nothing ctx.site.toSpot ts w₃
  | region :
    ctx.values = .text name :: others → openRegion ctx name w = .ok span w₁ →
    Relays r redoable ctx w .nothing (elementSpot ctx.site.toSpot span) ctx.body w₁
  | round :
    ctx.rawArgs = e :: others →
    Until (fun _ => whileRound r ctx e) id (List.replicate r.setting.config.maxLoopIterations ()) w (() :: rest) w₁ →
    r.eval e ctx.site w₁ = .ok v w₂ → v.isTruthy = true →
    Relays r whileLoop ctx w (.rounds e rest.length) ctx.site.toSpot ctx.body (loopWorld w₂)
  | item :
    ctx.args = .iteration binding e → loopOver r ctx e w = .ok items w₁ →
    Until (forRound r ctx binding) (· != .breakLoop) items w₁ (item :: rest) w₂ →
    Relays r forLoop ctx w (.items binding rest)
      { ctx.site.toSpot with captures := ctx.site.captures.extended binding item } ctx.body
      (loopWorld (bindWorld ctx.site.temp binding item w₂))
  | target :
    ctx.values = .text selector :: others →
    Until (placeOne r ctx p) (· == .normal) (w.host.document.query selector) w (target :: rest) w₁ →
    makeHolder p target w₁ = .ok holder w₂ →
    Relays r (Macros.place p) ctx w (.targets p rest) (elementSpot ctx.site.toSpot holder) ctx.body w₂

lemma passage_eq {name : String} {p : Passage} (hp : r.setting.passages.get? name = some p) (spot : Spot) {w w' : World}
    {ts : List Template} (hts : templatesOf r p.name p.startLine p.text w = .ok ts w') :
    r.passage spot name w = r.nodes (passageSpot spot p) ts w' := by
  have hmarkup : r.passage spot name = r.markup (passageSpot spot p) p.name p.startLine p.text := by
    unfold Renderer.passage
    rw [hp]
    rfl
  rw [hmarkup, markup_eq]
  simp [Bind.bind, EStateM.bind, hts]

lemma Until.ne_nil {α γ : Type} {f : γ → RenderM α} {goesOn : α → Bool} {items rest : List γ}
    {a : γ} {w w' : World} (h : Until f goesOn items w (a :: rest) w') : items ≠ [] := by
  cases h <;> exact List.cons_ne_nil _ _

lemma Relays.handler_eq {handler : Handler} {ctx : Context} {w w' : World} {remaining : Remaining}
    {inside : Spot} {ts : List Template} (h : Relays r handler ctx w remaining inside ts w') :
    handler r ctx w = remaining.resume r ctx (r.nodes inside ts w') := by
  have hbranch : ∀ {body : Option (List Template)} {ts v}, body = some ts →
      renderBranch r ctx body v = Remaining.nothing.resume r ctx (r.nodes ctx.site.toSpot ts v) := by
    rintro _ ts v rfl
    exact bind_eq_andThen _ _ v
  cases h with
  | text hts =>
    have hdisplay : ∀ v, display v w = .ok (w.heap.display v) w := fun _ => rfl
    rw [Macros.render, bind_eq_andThen, hdisplay]
    simp only [Outcome.andThen, markup_eq, bind_assoc, bind_eq_andThen, hts]
    rfl
  | included hvalues hp hts =>
    simp only [includePassage, hvalues, bind_eq_andThen, passage_eq hp _ hts]
    rfl
  | body hholds hts =>
    rw [ifChain_eq]
    simp only [Bind.bind, EStateM.bind, hholds, if_true]
    exact hbranch hts
  | branch hfails hturn hholds hts =>
    obtain ⟨rest, hrest⟩ := hturn.until
    rw [ifChain_eq]
    simp only [Bind.bind, EStateM.bind, hfails, Bool.false_eq_true, if_false]
    rw [hrest.eq (chooseBranch_cons ctx), chooseBranch_cons]
    simp only [Bind.bind, EStateM.bind, hholds, Bool.not_true, Bool.false_eq_true, if_false]
    exact hbranch hts
  | caseBody hsubject hturn hholds hts =>
    obtain ⟨rest, hrest⟩ := hturn.until
    rw [switchChain_eq]
    simp only [Bind.bind, EStateM.bind, hsubject]
    rw [hrest.eq (chooseCase_cons ctx _), chooseCase_cons]
    simp only [Bind.bind, EStateM.bind, hholds, Bool.not_true, Bool.false_eq_true, if_false]
    exact hbranch hts
  | region hvalues hspan =>
    rw [redoable_eq hvalues]
    simp only [bind_eq_andThen, hspan, Outcome.andThen]
    rfl
  | round hargs hrounds hcondition htrue =>
    have hloop := hrounds.repeatWhile_eq
    rw [List.length_replicate] at hloop
    simp only [whileLoop, firstArg, hargs, pure_bind, hloop, List.length_cons]
    rw [repeatWhile, bind_eq_andThen, hcondition]
    simp only [Outcome.andThen, htrue, if_true, bind_eq_andThen, Renderer.loopBody, inLoop_eq]
    rfl
  | item hargs hitems hrounds =>
    rw [forLoop_eq hargs, bind_eq_andThen, hitems]
    simp only [Outcome.andThen]
    rw [hrounds.eq (repeatFor_cons ctx _), repeatFor_cons, bind_eq_andThen]
    simp only [forRound, Renderer.loopBody]
    rw [bind_eq_andThen]
    change Outcome.andThen (inLoop _ (bindWorld _ _ _ _)) _ = _
    rw [inLoop_eq]
    rfl
  | target hvalues htargets hholder =>
    rw [place_eq hvalues htargets.ne_nil, htargets.eq (placeEach_cons ctx _), placeEach_cons,
      bind_eq_andThen, placeOne, bind_eq_andThen, hholder]
    rfl

def placing (site : Site) (name : String) :
    EStateM.Result RenderError World Output → EStateM.Result RenderError World Signal
  | .ok output w => placeOutput site output w
  | .error e w => settle site.container name site.loc e w

lemma useMacro_eq {u : MacroUse} {d : Definition} {values : List Value} {site : Site} {w w' : World}
    (hd : defs[u.id]? = some d) (hbody : bodyMistake? d.info u.content = none)
    (hvalues : evalValues r site (valueArgs d.info u.args) w = .ok values w') :
    useMacro defs r u.id u.args u.content u.chain site w =
      placing site d.info.name (d.handler r ⟨d.info.name, u.args, values, u.content, u.chain, site⟩ w') := by
  have hcaught := catchingRender_of_ok hvalues
  simp only [useMacro, hd, hbody, Bind.bind, EStateM.bind, hcaught]
  unfold catchingRender
  cases d.handler r ⟨d.info.name, u.args, values, u.content, u.chain, site⟩ w' <;> rfl

lemma renderNode_use {spot : Spot} {t : Template} {u : MacroUse} {d : Definition}
    {values : List Value} {w w₁ w₂ : World}
    (hu : Uses r spot t w u w₁) (hd : defs[u.id]? = some d) (hbody : bodyMistake? d.info u.content = none)
    (hvalues : evalValues r { spot with loc := t.loc } (valueArgs d.info u.args) w₁ = .ok values w₂) :
    renderNode defs r spot t w = placing { spot with loc := t.loc } d.info.name
      (d.handler r ⟨d.info.name, u.args, values, u.content, u.chain, { spot with loc := t.loc }⟩ w₂) := by
  have huse := useMacro_eq hd hbody hvalues
  cases hu with
  | reference hresolved =>
    rw [← huse]
    simp only [renderNode, renderReference, Bind.bind, EStateM.bind, hresolved]
    rfl
  | chain hfound =>
    have hget : (get : RenderM World) w = .ok w w := rfl
    rw [← huse]
    simp only [renderNode, renderChain, Bind.bind, EStateM.bind, hget, hfound]
    rfl

lemma renderNode_content {spot : Spot} {name : String} {attributes : Bindings String}
    {dynamic : Bindings Markup.ExprSource} {loc : Location} {node : Nat} {w w' : World}
    (hopen : openElement r spot name attributes dynamic loc w = .ok node w')
      (hraw : Markup.rawTags.contains name = false)
    (content : List Template) :
    renderNode defs r spot (.element name attributes dynamic content loc) w =
      r.nodes (elementSpot spot node) content w' := by
  rw [renderNode, renderElement_eq]
  simp only [Bind.bind, EStateM.bind, hopen, hraw, Bool.false_eq_true, if_false]

end Relays

section Fatal

/-- The second world is the first one but for how deep it is nested. -/
def Unwound (w v : World) : Prop :=
  ∃ depth loopDepth recovering, v = { w with host := { w.host with depth, loopDepth, recovering } }

lemma Unwound.refl (w : World) : Unwound w w := ⟨_, _, _, rfl⟩

lemma Unwound.trans {w v u : World} (h : Unwound w v) (h' : Unwound v u) : Unwound w u := by
  obtain ⟨_, _, _, rfl⟩ := h
  obtain ⟨depth, loopDepth, recovering, rfl⟩ := h'
  exact ⟨depth, loopDepth, recovering, rfl⟩

def Task.FailsWith (defs : Array Definition) (r : Renderer) (e : RenderError) : Task → World → World → Prop
  | .nodes spot ts, w, v => r.nodes spot ts w = .error e v
  | .template spot t, w, v => renderNode defs r spot t w = .error e v
  | .use handler ctx, w, v => handler r ctx w = .error e v
  | .passage spot name, w, v => r.passage spot name w = .error e v
  | _, _, _ => False

structure RenderError.Ending (e : RenderError) : Prop where
  fatal : e.isFatal = true
  displayed : e.displayed = true

def Task.Renders : Task → Prop
  | .nodes .. | .template .. | .use .. | .passage .. => True
  | _ => False

/-- In the course of a task of rendering another one is begun, in the same pass and by no script,
with some of the levels left below it. -/
inductive Within (setting : Setting) (defs : Array Definition) : Nat → Task → World → Nat → Task → World → Prop
  | here : Within setting defs levels t w levels t w
  | call :
    Calls defs (renderer setting defs levels) t w link t₁ w₁ → t.Renders →
    Within setting defs levels t₁ w₁ rest t' w' → Within setting defs levels t w rest t' w'
  | item :
    w.host.recovering = false → w.host.depth < setting.config.recursionLimit →
    Arrives defs (renderer setting defs levels) spot none ts
      { w with host := { w.host with depth := w.host.depth + 1 } } para (t :: others) w₁ →
    itemSpot spot para t others w₁ = .ok inside w₂ →
    Within setting defs levels (.template inside t) w₂ rest t' w' →
    Within setting defs (levels + 1) (.nodes spot ts) w rest t' w'

/-- The macro that a template uses fails. -/
inductive Raises (defs : Array Definition) (r : Renderer) (spot : Spot) :
    Template → World → RenderError → World → Prop
  | intro :
    Uses r spot t w u w₁ → defs[u.id]? = some d → bodyMistake? d.info u.content = none →
    evalValues r { spot with loc := t.loc } (valueArgs d.info u.args) w₁ = .ok values w₂ →
    d.handler r ⟨d.info.name, u.args, values, u.content, u.chain, { spot with loc := t.loc }⟩ w₂ = .error e v →
    Raises defs r spot t w e v

variable {e : RenderError} {w v : World}

lemma nested_error {α : Type} {x : RenderM α} (recoveryDepth : Nat)
    (h : x { w with host := { w.host with depth := w.host.depth + 1 } } = .error e v) :
    ∃ u, Unwound v u ∧ nested recoveryDepth x w = .error e u := by
  refine ⟨{ v with host := { v.host with
    depth := v.host.depth - 1, recovering := v.host.recovering && v.host.depth - 1 > recoveryDepth }
      }, ⟨_, _, _, rfl⟩, ?_⟩
  simp [nested, h]

lemma placing_ending (he : e.Ending) (site : Site) (name : String) : placing site name (.error e v) = .error e v := by
  have hblame : e.blame name site.loc = e := if_pos he.displayed
  simp only [placing, settle, hblame, Bind.bind, EStateM.bind, displayError_of_shown _ he.displayed, he.fatal, if_true]
  rfl

lemma Calls.relays {handler : Handler} {ctx : Context} {link : Link} {inside : Spot} {ts : List Template} {w' : World}
    (h : Calls defs r (.use handler ctx) w link (.nodes inside ts) w') :
    ∃ remaining, Relays r handler ctx w remaining inside ts w' := by
  cases h with
  | text hts => exact ⟨_, .text hts⟩
  | body hholds hts => exact ⟨_, .body hholds hts⟩
  | branch hfails hturn hholds hts => exact ⟨_, .branch hfails hturn hholds hts⟩
  | caseBody hsubject hturn hholds hts => exact ⟨_, .caseBody hsubject hturn hholds hts⟩
  | whileBody hargs hturn hcondition htrue =>
    obtain ⟨rest, hrest⟩ := hturn.until
    exact ⟨_, .round hargs hrest hcondition htrue⟩
  | round hargs hitems hturn =>
    obtain ⟨rest, hrest⟩ := hturn.until
    exact ⟨_, .item hargs hitems hrest⟩
  | place hvalues hturn hholder =>
    obtain ⟨rest, hrest⟩ := hturn.until
    exact ⟨_, .target hvalues hrest hholder⟩
  | region hvalues hspan => exact ⟨_, .region hvalues hspan⟩

lemma Remaining.resume_error (remaining : Remaining) (ctx : Context) (e : RenderError) (v : World) :
    ∃ u, Unwound v u ∧ remaining.resume r ctx (.error e v) = .error e u := by
  cases remaining with
  | nothing | targets => exact ⟨v, .refl v, rfl⟩
  | rounds | items => exact ⟨_, ⟨_, _, _, rfl⟩, rfl⟩

lemma Calls.fails {t t' : Task} {link : Link} {w' : World} (h : Calls defs r t w link t' w')
    (ht : t.Renders) (he : e.Ending) (hfails : t'.FailsWith defs r e w' v) :
    ∃ u, Unwound v u ∧ t.FailsWith defs r e w u := by
  cases t with
  | nodes spot ts => cases h
  | template spot t =>
    cases h with
    | content hopen hraw => exact ⟨v, .refl v, (renderNode_content hopen hraw _).trans hfails⟩
    | use hu hd hbody hvalues =>
      refine ⟨v, .refl v, (renderNode_use hu hd hbody hvalues).trans ?_⟩
      rw [show _ = _ from hfails]
      exact placing_ending he _ _
    | _ => exact hfails.elim
  | use handler ctx =>
    cases t' with
    | nodes inside ts =>
      obtain ⟨remaining, hrelays⟩ := h.relays
      obtain ⟨u, hu, hresume⟩ := remaining.resume_error ctx e v
      refine ⟨u, hu, hrelays.handler_eq.trans ?_⟩
      rw [show r.nodes inside ts w' = .error e v from hfails, hresume]
    | passage spot name =>
      cases h with
      | included hvalues =>
        refine ⟨v, .refl v, ?_⟩
        simp only [Task.FailsWith] at hfails ⊢
        simp [includePassage, hvalues, Bind.bind, EStateM.bind, hfails]
    | template | use => cases h
    | _ => exact hfails.elim
  | passage spot name =>
    cases h with
    | parsed hp hts => exact ⟨v, .refl v, (passage_eq hp spot hts).trans hfails⟩
  | _ => exact ht.elim

lemma renderNode_text_ok (spot : Spot) (s : String) (loc : Location) (w : World) :
    ∃ v, renderNode defs r spot (.text s loc) w = .ok .normal v := by
  obtain ⟨_, document, -, hemit⟩ := (Drawing.emitText spot.container s spot.mode).ok w
  refine ⟨{ w with host := { w.host with document } }, ?_⟩
  simp only [renderNode, renderText, Bind.bind, EStateM.bind, hemit]
  rfl

lemma renderItem_error {spot inside : Spot} {para : Option Nat} {t : Template}
    {rest : List Template} {w w' : World} (hspot : itemSpot spot para t rest w = .ok inside w')
    (hfails : renderNode defs r inside t w' = .error e v) :
    renderItem defs r spot para t rest w = .error e v := by
  have ht : ∀ s loc, t ≠ .text s loc := by
    rintro s loc rfl
    obtain ⟨u, hu⟩ := @renderNode_text_ok defs r inside s loc w'
    rw [hu] at hfails
    cases hfails
  rw [renderItem_eq fun _ => ht]
  simp [Bind.bind, EStateM.bind, hspot, hfails]

lemma Within.fails {levels rest : Nat} {t t' : Task} {w' : World} (h : Within setting defs levels t w rest t' w')
    (he : e.Ending) (hfails : t'.FailsWith defs (renderer setting defs rest) e w' v) :
    ∃ u, Unwound v u ∧ t.FailsWith defs (renderer setting defs levels) e w u := by
  induction h with
  | here => exact ⟨v, .refl v, hfails⟩
  | call hcall ht _ ih =>
    obtain ⟨u, hu, hcalled⟩ := ih hfails
    obtain ⟨u', hu', hcaller⟩ := hcall.fails ht he hcalled
    exact ⟨u', hu.trans hu', hcaller⟩
  | @item levels spot ts w _ _ _ _ _ _ _ _ _ hrec hdepth harrives hspot _ ih =>
    obtain ⟨u, hu, htemplate⟩ := ih hfails
    have hsequence : renderSequence defs (renderer setting defs levels) spot ts
        { w with host := { w.host with depth := w.host.depth + 1 } } = .error e u := by
      rw [renderSequence_eq, harrives.renderFrom_eq, renderFrom_cons]
      simp [Bind.bind, EStateM.bind, renderItem_error hspot htemplate]
    obtain ⟨u', hu', hnested⟩ := nested_error setting.config.recoveryDepth hsequence
    refine ⟨u', hu.trans hu', ?_⟩
    rw [renderer_succ]
    refine (renderNodes_nested spot ts hrec (by rwa [renderer_setting])).trans ?_
    rwa [renderer_setting]

lemma Raises.renderNode_eq {spot : Spot} {t : Template} (h : Raises defs r spot t w e v)
    (hfatal : e.isFatal = true) (hnew : e.displayed = false) :
    ∃ u, displayError spot.container e v = .ok { e with displayed := true } u ∧
      u.host.errors = v.host.errors.push { e with displayed := true } ∧
      renderNode defs r spot t w = .error { e with displayed := true } u := by
  obtain ⟨document, hshown⟩ := displayError_of_new spot.container hnew v
  refine ⟨_, hshown, rfl, ?_⟩
  cases h with
  | intro hu hd hbody hvalues hfails =>
    have hblame : ∀ name loc, e.blame name loc = e := by
      intro name loc
      obtain ⟨problem, _, _, _⟩ := e
      cases problem with
      | tooManyIterations => exact if_neg (Bool.eq_false_iff.1 hnew)
      | _ => exact absurd hfatal Bool.false_ne_true
    rw [renderNode_use hu hd hbody hvalues, hfails]
    simp only [placing, settle, hblame, Bind.bind, EStateM.bind, hshown]
    exact if_pos hfatal ▸ rfl

end Fatal
end StoryMarkup.Render
