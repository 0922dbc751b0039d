import StoryMarkup.Proofs.Render.Unwinding

/-! Recovery from too deep a recursion: output is held back until rendering has come up far
enough. -/
namespace StoryMarkup.Render

open List

open Markup (Location Template)
open Script (Value)

variable {setting : Setting} {defs : Array Definition} {r : Renderer} {config : Config} {α : Type}
  (recoveryDepth : Nat)

section Held

def Regime.held (config : Config) : Regime where
  config
  kept := fun _ recovering => recovering = true
  deeper := fun h => absurd h Bool.false_ne_true
  cut := fun h => absurd h Bool.false_ne_true
  left := fun h => absurd h Bool.false_ne_true

def mute (setting : Setting) (defs : Array Definition) : Nat → Renderer
  | 0 => renderer setting defs 0
  | levels + 1 => {
      setting
      nodes := fun _ _ => return .normal
      invoke := fun site id name args => invokeMacro defs (mute setting defs levels) site id name args }

@[simp] lemma mute_setting (setting : Setting) (defs : Array Definition) (levels : Nat) :
    (mute setting defs levels).setting = setting := by
  cases levels <;> rfl

/-- What cannot be told apart while output is held back comes to the same, and does not end the
recovery. -/
theorem eq_of_held {x y : RenderM α} (h : ∀ p, (Regime.held config).Lockstep p x y) {w : World}
    (hw : w.host.recovering = true) : x w = y w ∧ (ending (y w)).host.recovering = true := by
  have hm := h ⟨w.frames, w.frames, w.host.depth, w.host.loopDepth⟩ w w ⟨rfl, rfl, rfl, rfl, hw⟩
  have hsame := Regime.eq_of_matched hm
  rw [hsame] at hm ⊢
  exact ⟨rfl, hm.ends.kept⟩

lemma Fellows.renderFrom {G : Regime} {p : Footing} {out : Signal → Prop} {r' : Renderer} (h : Fellows G p out r r')
    (hsteady : ∀ d ∈ defs, d.handler.Steady) (spot : Spot) (paragraph : Option Nat) (ts : List Template) :
    G.Follows p out (renderFrom defs r spot paragraph ts) (renderFrom defs r' spot paragraph ts) := by
  unfold Render.renderFrom
  cases spot.mode with
  | block => exact h.renderBlock hsteady spot paragraph ts
  | _ => exact h.renderEach hsteady spot ts

variable (setting) (hsteady : ∀ d ∈ defs, d.handler.Steady)
include hsteady

lemma fellows_mute (levels : Nat) (p : Footing) :
    Fellows (Regime.held setting.config) p (fun _ => False) (renderer setting defs levels)
      (mute setting defs levels) := by
  induction levels generalizing p with
  | zero => exact fellows_renderer hsteady rfl 0 p
  | succ levels ih =>
    have hnodes : ∀ (q : Footing) spot ts, (Regime.held setting.config).Lockstep q
        ((renderer setting defs (levels + 1)).nodes spot ts)
        ((mute setting defs (levels + 1)).nodes spot ts) := by
      intro q spot ts
      refine .rigid fun w w' hw => ?_
      rw [renderer_succ]
      change Matched False _ (renderNodes defs _ spot ts w) _
      rw [renderNodes_held spot ts hw.kept]
      exact .ok _ hw
    exact
      { setting_eq := rfl, config_eq := rfl, out_normal := id, out_loops := fun _ => False.elim
        nodes := fun spot ts => .of_lockstep _ (hnodes p spot ts)
        invoke := fun _ _ site id name args => (ih _).invokeMacro hsteady site id name args
        inner := hnodes _, fresh := hnodes _ }

end Held

section Unfinished

inductive Handing where
  /-- As an element, with nothing left to do. -/
  | content
  /-- As the use of a macro, with something left to do. -/
  | output (ctx : Context) (remaining : Remaining)

def Handing.take (r : Renderer) : Handing → Outcome Signal → Outcome Signal
  | .content, result => result
  | .output ctx remaining, result => placing ctx.site ctx.name (remaining.resume r ctx result)

/-- A sequence that waits for one of its templates: how it will go on. -/
structure Frame where
  levels : Nat
  spot : Spot
  handing : Handing
  paragraph : Option Nat
  others : List Template

def leaveWorld (recoveryDepth : Nat) (w : World) : World :=
  let depth := w.host.depth - 1
  let recovering := w.host.recovering && depth > recoveryDepth
  { w with host := { w.host with depth, recovering } }

def leaving {α : Type} (recoveryDepth : Nat) : Outcome α → Outcome α
  | .ok a w => .ok a (leaveWorld recoveryDepth w)
  | .error e w => .error e (leaveWorld recoveryDepth w)

def Frame.finish (defs : Array Definition) (r : Renderer) (f : Frame) (result : Outcome Signal) : Outcome Signal :=
  leaving r.setting.config.recoveryDepth ((f.handing.take r result).andThen fun s =>
    if s == .normal then renderFrom defs r f.spot f.paragraph f.others else return s)

lemma nested_eq (x : RenderM α) (w : World) :
    nested recoveryDepth x w =
      leaving recoveryDepth (x { w with host := { w.host with depth := w.host.depth + 1 } }) := by
  unfold nested leaving
  cases x { w with host := { w.host with depth := w.host.depth + 1 } } <;> rfl

inductive HandsOn (defs : Array Definition) (r : Renderer) (spot : Spot) :
    Template → World → Handing → Spot → List Template → World → Prop
  | content :
    openElement r spot name attributes dynamic loc w = .ok node w₁ → Markup.rawTags.contains name = false →
    HandsOn defs r spot (.element name attributes dynamic content loc) w .content (elementSpot spot node) content w₁
  | output :
    Uses r spot t w u w₁ → defs[u.id]? = some d → bodyMistake? d.info u.content = none →
    evalValues r { spot with loc := t.loc } (valueArgs d.info u.args) w₁ = .ok values w₂ →
    ctx = ⟨d.info.name, u.args, values, u.content, u.chain, { spot with loc := t.loc }⟩ →
    Relays r d.handler ctx w₂ remaining inside ts w₃ →
    HandsOn defs r spot t w (.output ctx remaining) inside ts w₃

lemma HandsOn.renderNode_eq {spot inside : Spot} {t : Template} {w w' : World} {handing : Handing}
    {ts : List Template} (h : HandsOn defs r spot t w handing inside ts w') :
    renderNode defs r spot t w = handing.take r (r.nodes inside ts w') := by
  cases h with
  | content hopen hraw => exact renderNode_content hopen hraw _
  | output hu hd hbody hvalues hctx hrelays =>
    rw [renderNode_use hu hd hbody hvalues, ← hctx, hrelays.handler_eq, hctx]
    rfl

lemma HandsOn.ne_text {spot inside : Spot} {t : Template} {w w' : World} {handing : Handing} {ts : List Template}
    (h : HandsOn defs r spot t w handing inside ts w') (s : String) (loc : Location) : t ≠ .text s loc := by
  rintro rfl
  cases h with
  | output hu => cases hu

/-- Rendering a sequence comes to another one, by way of elements and macros in it and by no script:
the sequences that are unfinished then, the innermost first. -/
inductive Descends (setting : Setting) (defs : Array Definition) :
    Nat → Spot → List Template → World → List Frame → Nat → Spot → List Template → World → Prop
  | here : Descends setting defs levels spot ts w [] levels spot ts w
  | step :
    w.host.recovering = false → w.host.depth < setting.config.recursionLimit →
    Arrives defs (renderer setting defs levels) spot none ts
      { w with host := { w.host with depth := w.host.depth + 1 } } paragraph (t :: others) w₁ →
    itemSpot spot paragraph t others w₁ = .ok place w₂ →
    HandsOn defs (renderer setting defs levels) place t w₂ handing inside ts₁ w₃ →
    Descends setting defs levels inside ts₁ w₃ frames rest spot' ts' w' →
    Descends setting defs (levels + 1) spot ts w
      (frames ++ [⟨levels, spot, handing, openAfter spot paragraph t others place, others⟩]) rest spot' ts' w'

lemma Descends.nodes_eq {levels rest : Nat} {spot spot' : Spot} {ts ts' : List Template} {w w' : World}
    {frames : List Frame} (h : Descends setting defs levels spot ts w frames rest spot' ts' w') :
    (renderer setting defs levels).nodes spot ts w =
      frames.foldl (fun result f => f.finish defs (renderer setting defs f.levels) result)
        ((renderer setting defs rest).nodes spot' ts' w') := by
  induction h with
  | here => rfl
  | @step levels spot ts w paragraph t others w₁ place w₂ handing inside ts₁ w₃ _ _ _ _ _ hrec
      hdepth harrives hspot hhands _ ih =>
    rw [foldl_append, ← ih, renderer_succ]
    refine (renderNodes_nested spot ts hrec (by rwa [renderer_setting])).trans ?_
    rw [nested_eq, renderSequence_eq, harrives.renderFrom_eq, renderFrom_cons,
      renderItem_eq fun _ => hhands.ne_text]
    simp only [foldl_cons, foldl_nil, Frame.finish, Bind.bind, EStateM.bind, hspot, hhands.renderNode_eq]
    cases handing.take (renderer setting defs levels)
      ((renderer setting defs levels).nodes inside ts₁ w₃) <;> rfl

/-- The renderer that an unfinished sequence goes on with: while output is held back it renders no
sequences. -/
def resuming (setting : Setting) (defs : Array Definition) (levels : Nat) (w : World) : Renderer :=
  if w.host.recovering then mute setting defs levels else renderer setting defs levels

section

variable (setting) (hsteady : ∀ d ∈ defs, d.handler.Steady)
include hsteady

lemma Remaining.resume_held (remaining : Remaining) (levels : Nat) (ctx : Context)
    {result : Outcome Signal} (h : (ending result).host.recovering = true) :
    remaining.resume (renderer setting defs levels) ctx result =
        remaining.resume (mute setting defs levels) ctx result ∧
      (ending (remaining.resume (mute setting defs levels) ctx result)).host.recovering = true := by
  have hmute := fellows_mute setting hsteady levels
  cases result with
  | error e w =>
    cases remaining <;> exact ⟨rfl, h⟩
  | ok s w =>
    cases remaining with
    | nothing => exact ⟨rfl, h⟩
    | rounds condition more =>
      exact eq_of_held (fun p => .ite (.pure _) (Macros.lockstep_repeatWhile (hmute p) ctx condition more)) h
    | items binding rest =>
      exact eq_of_held (fun p => .ite (Macros.lockstep_repeatFor (hmute p) ctx binding rest) (.pure _)) h
    | targets placement rest =>
      have hplace : ∀ p, (Regime.held setting.config).Lockstep p
          (Macros.placeEach (renderer setting defs levels) ctx placement rest)
          (Macros.placeEach (mute setting defs levels) ctx placement rest) := by
        refine fun p => (Macros.follows_placeEach (hmute p) ctx placement rest).lockstep fun output hleaves => ?_
        cases output <;> exact hleaves
      exact eq_of_held (fun p => .ite (hplace p) (.pure _)) h

lemma Handing.take_held (handing : Handing) (levels : Nat) {result : Outcome Signal}
    (h : (ending result).host.recovering = true) :
    handing.take (renderer setting defs levels) result = handing.take (mute setting defs levels) result ∧
      (ending (handing.take (mute setting defs levels) result)).host.recovering = true := by
  cases handing with
  | content => exact ⟨rfl, h⟩
  | output ctx remaining =>
    obtain ⟨hsame, hheld⟩ := remaining.resume_held setting hsteady levels ctx h
    have htake : ∀ r, (Handing.output ctx remaining).take r result =
        placing ctx.site ctx.name (remaining.resume r ctx result) := fun _ => rfl
    rw [htake, htake, hsame]
    refine ⟨rfl, ?_⟩
    generalize remaining.resume (mute setting defs levels) ctx result = output at hheld ⊢
    cases output with
    | ok output w => exact (eq_of_held (fun p => (Regime.held {}).placeOutput ctx.site output) hheld).2
    | error e w =>
      exact (eq_of_held (fun p => (Regime.held {}).settle ctx.site.container ctx.name ctx.site.loc e) hheld).2

lemma Frame.finish_held (f : Frame) (result : Outcome Signal) :
    f.finish defs (renderer setting defs f.levels) result =
      f.finish defs (resuming setting defs f.levels (ending result)) result := by
  unfold resuming
  cases hrec : (ending result).host.recovering with
  | false => rw [if_neg Bool.false_ne_true]
  | true =>
    obtain ⟨hsame, hheld⟩ := f.handing.take_held setting hsteady f.levels hrec
    rw [if_pos rfl]
    unfold finish
    rw [renderer_setting, mute_setting, hsame]
    congr 1
    cases hresult : f.handing.take (mute setting defs f.levels) result with
    | error e w => rfl
    | ok s w =>
      rw [hresult] at hheld
      have hrest : renderFrom defs (renderer setting defs f.levels) f.spot f.paragraph f.others w =
          renderFrom defs (mute setting defs f.levels) f.spot f.paragraph f.others w :=
        (eq_of_held (fun p => ((fellows_mute setting hsteady f.levels p).renderFrom hsteady f.spot
          f.paragraph f.others).lockstep fun _ => id) hheld).1
      simp only [Outcome.andThen]
      split
      · exact hrest
      · rfl

end

def Handing.Spent : Handing → Prop
  | .content => True
  | .output _ .nothing => True
  | .output _ (.items _ rest) => rest = []
  | .output _ (.targets _ rest) => rest = []
  | .output _ (.rounds ..) => False

structure Frame.Spent (f : Frame) : Prop where
  handing : f.handing.Spent
  others : f.others = []

lemma Handing.take_normal {handing : Handing} (h : handing.Spent) (r : Renderer) (w : World) :
    ∃ loopDepth, handing.take r (.ok .normal w) = .ok .normal { w with host := { w.host with loopDepth } } := by
  cases handing with
  | content => exact ⟨_, rfl⟩
  | output ctx remaining =>
    cases remaining with
    | nothing => exact ⟨_, rfl⟩
    | rounds => exact h.elim
    | items binding rest | targets p rest =>
      cases show rest = [] from h
      exact ⟨_, rfl⟩

lemma Frame.finish_spent {f : Frame} (h : f.Spent) (r : Renderer) (w : World) :
    ∃ loopDepth, f.finish defs r (.ok .normal w) =
      .ok .normal (leaveWorld r.setting.config.recoveryDepth { w with host := { w.host with loopDepth } }) := by
  obtain ⟨loopDepth, htake⟩ := f.handing.take_normal h.handing r w
  have hrest : ∀ v, renderFrom defs r f.spot f.paragraph [] v = .ok .normal v := by
    intro v
    unfold renderFrom
    cases f.spot.mode <;> rfl
  refine ⟨loopDepth, ?_⟩
  unfold finish
  rw [htake, h.others]
  change leaving _ (renderFrom defs r f.spot f.paragraph [] _) = _
  rw [hrest]
  rfl

def leaveWorlds (recoveryDepth n : Nat) (w : World) : World :=
  let depth := w.host.depth - n
  let recovering := w.host.recovering && (n == 0 || depth > recoveryDepth)
  { w with host := { w.host with depth, recovering } }

lemma leaveWorlds_succ (n : Nat) (w : World) :
    leaveWorlds recoveryDepth n (leaveWorld recoveryDepth w) = leaveWorlds recoveryDepth (n + 1) w := by
  have hdepth : w.host.depth - 1 - n = w.host.depth - (n + 1) := by omega
  have hflag : (w.host.recovering && decide (w.host.depth - 1 > recoveryDepth) &&
      (n == 0 || decide (w.host.depth - (n + 1) > recoveryDepth))) =
        (w.host.recovering && (n + 1 == 0 || decide (w.host.depth - (n + 1) > recoveryDepth))) := by
    rw [Bool.eq_iff_iff]
    simp only [Bool.and_eq_true, Bool.or_eq_true, decide_eq_true_eq, beq_iff_eq]
    constructor
    · rintro ⟨⟨hrec, hone⟩, hall⟩
      exact ⟨hrec, by omega⟩
    · rintro ⟨hrec, hall⟩
      exact ⟨⟨hrec, by omega⟩, by omega⟩
  simp [leaveWorlds, leaveWorld, hdepth, hflag]

lemma foldl_finish_spent {resume : Frame → Outcome Signal → Renderer}
    (hconfig : ∀ f result, (resume f result).setting.config = config) (held : List Frame)
    (hspent : ∀ f ∈ held, f.Spent) (w : World) :
    ∃ loopDepth, held.foldl (fun result f => f.finish defs (resume f result) result) (.ok .normal w) =
      .ok .normal (leaveWorlds config.recoveryDepth held.length { w with host := { w.host with loopDepth } }) := by
  induction held generalizing w with
  | nil => exact ⟨w.host.loopDepth, by simp [leaveWorlds]⟩
  | cons f held ih =>
    obtain ⟨first, hfirst⟩ := @Frame.finish_spent defs f (hspent f mem_cons_self) (resume f (.ok .normal w)) w
    rw [hconfig] at hfirst
    obtain ⟨loopDepth, hrest⟩ := ih (fun f hf => hspent f (mem_cons_of_mem _ hf)) _
    refine ⟨loopDepth, ?_⟩
    rw [foldl_cons, hfirst, hrest, length_cons, ← leaveWorlds_succ]
    rfl

/-- A recursion that goes too deep is reported once where it is cut off. From there on the
unfinished sequences go on, the innermost first, and as long as output is held back they do so with
a renderer that renders no sequences: nothing that is begun in the meantime is seen. So nothing at
all is seen as long as the sequences have nothing left. -/
theorem recovery_shows_rests_only (hsteady : ∀ d ∈ defs, d.handler.Steady) {levels rest : Nat}
    {spot spot' : Spot} {ts ts' : List Template} {w w' : World} {frames : List Frame}
    (h : Descends setting defs levels spot ts w frames (rest + 1) spot' ts' w')
    (hrec : w'.host.recovering = false) (hdepth : setting.config.recursionLimit ≤ w'.host.depth) :
    ∃ document,
      let e : RenderError := ⟨.recursion, firstLocation w'.host.current ts', none, true⟩
      let cut : World :=
        { w' with host := { w'.host with document, errors := w'.host.errors.push e, recovering := true } }
      let goOn (result : Outcome Signal) (f : Frame) : Outcome Signal :=
        f.finish defs (resuming setting defs f.levels (ending result)) result
      (renderer setting defs (rest + 1)).nodes spot' ts' w' = .ok .normal cut ∧
      (renderer setting defs levels).nodes spot ts w = frames.foldl goOn (.ok .normal cut) ∧
      ∀ held outer, frames = held ++ outer → (∀ f ∈ held, f.Spent) → ∃ loopDepth,
        (renderer setting defs levels).nodes spot ts w =
          outer.foldl goOn (.ok .normal (leaveWorlds setting.config.recoveryDepth held.length
            { cut with host := { cut.host with loopDepth } })) := by
  obtain ⟨document, hshown⟩ := displayError_of_new spot'.container
    (e := ⟨.recursion, firstLocation w'.host.current ts', none, false⟩) rfl
    { w' with host := { w'.host with recovering := true } }
  refine ⟨document, ?_⟩
  intro e cut goOn
  have hcut : (renderer setting defs (rest + 1)).nodes spot' ts' w' = .ok .normal cut := by
    rw [renderer_succ]
    refine (renderNodes_cut spot' ts' hrec (by rwa [renderer_setting])).trans ?_
    simp only [reportError, Bind.bind, EStateM.bind, hshown]
    rfl
  have hfinish : (fun result (f : Frame) => f.finish defs (renderer setting defs f.levels) result) = goOn := by
    funext result f
    exact f.finish_held setting hsteady result
  have hnodes : (renderer setting defs levels).nodes spot ts w = frames.foldl goOn (.ok .normal cut) := by
    rw [h.nodes_eq, hcut, hfinish]
  refine ⟨hcut, hnodes, fun held outer hframes hspent => ?_⟩
  have hconfig : ∀ (f : Frame) (result : Outcome Signal),
      (resuming setting defs f.levels (ending result)).setting.config = setting.config := by
    intro f result
    unfold resuming
    split
    · rw [mute_setting]
    · rw [renderer_setting]
  obtain ⟨loopDepth, hheld⟩ := @foldl_finish_spent defs _ _ hconfig held hspent cut
  refine ⟨loopDepth, ?_⟩
  rw [hnodes, hframes, foldl_append, hheld]

/-- With a limit of two, the content of the inner one of two elements is cut off, and nothing
follows. -/
theorem inner_element_cut_off : let loc : Location := ⟨"p", 1⟩
    let setting : Setting := ⟨.ofList [], { recursionLimit := 2, recoveryDepth := 0 }, #[], 0, 1⟩
    let spot : Spot := { temp := 0, container := 0, mode := .inline }
    let ts : List Template := [.text "a" loc,
      .element "i" .empty .empty [.element "b" .empty .empty [.text "x" loc] loc] loc]
    let w : World := { heap := {}, random := 1, host := {} }
    ∃ v : World, (renderer setting Macros.builtins.toArray 3).nodes spot ts w = .ok .normal v ∧
      v.host.errors = #[⟨.recursion, loc, none, true⟩] ∧ v.host.depth = 0 ∧ v.host.recovering = false := by
  intro loc setting spot ts w
  have hdescends : ∃ frames spot' w', Descends setting Macros.builtins.toArray 3 spot ts w frames 1
      spot' [.text "x" loc] w' ∧ frames.length = 2 ∧ (∀ f ∈ frames, f.Spent) ∧ w'.host.recovering =
      false ∧ w'.host.depth = 2 ∧ w'.host.errors = #[] :=
    ⟨_, _, _, .step rfl (by decide) (.next rfl (.here _ _ _)) rfl (.content rfl rfl)
      (.step rfl (by decide) (.here _ _ _) rfl (.content rfl rfl) .here), rfl,
      forall_mem_cons.2 ⟨⟨trivial, rfl⟩, forall_mem_singleton.2 ⟨trivial, rfl⟩⟩, rfl, rfl, rfl⟩
  obtain ⟨frames, spot', w', hdescends, hlength, hspent, hrec, hdepth, herrors⟩ := hdescends
  obtain ⟨document, -, -, hrests⟩ := recovery_shows_rests_only
    (fun d hd => Macros.steady_builtins d (by simpa using hd)) hdescends hrec (hdepth ▸ by decide)
  obtain ⟨loopDepth, hend⟩ := hrests frames [] (append_nil _).symm hspent
  rw [hlength] at hend
  refine ⟨_, hend, ?_, ?_, ?_⟩
  · change w'.host.errors.push _ = _
    rw [herrors]
    rfl
  · change w'.host.depth - 2 = 0
    rw [hdepth]
  · change (true && (false || decide (w'.host.depth - 2 > 0))) = false
    rw [hdepth]
    rfl

/-- A passage that includes itself is cut off at once, and the text behind is printed though output
is held back. -/
theorem rest_printed_while_recovering : let passages := Passages.ofList [⟨"p", "@include(\"p\")b", [], 1⟩]
    let constants := Bindings.ofList [("include", Value.macroDef 4 "include")]
    let config : Config := { recursionLimit := 1, recoveryDepth := 0, defaultMode := .inline }
    let s := (Session.start passages config ⟨constants, Macros.builtins.toArray, true⟩ {} 1).goTo "p"
    s.document.textContent Document.root = "Too much recursion; possible infinite recursionb" := by
  decide +kernel

end Unfinished
end StoryMarkup.Render
