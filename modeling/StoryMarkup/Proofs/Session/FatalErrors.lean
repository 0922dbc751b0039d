import StoryMarkup.Proofs.Render.Unwinding
import StoryMarkup.Proofs.Session.Budget

/-! Fatal errors in a session. A loop that runs too often ends the pass with an error that is shown
once. -/
namespace StoryMarkup.Session

open Markup (Location Template)
open Render
open Script (Value)

/-- An operation shows something: what is rendered, and in which world. -/
inductive Shows (r : Renderer) : Operation → World → Task → World → Prop
  | goTo :
    leavePassage passage (passWorld w) = .ok temp v →
    Shows r (.goTo passage) w
      (.passage { temp, container := Document.root, mode := r.setting.config.defaultMode } passage) v
  | render :
    Shows r (.render container temp mode captures ts) w (.nodes { temp, container, mode, captures } ts) (passWorld w)
  | renderPassage :
    Shows r (.renderPassage container temp mode captures name) w
      (.passage { temp, container, mode, captures } name) (passWorld w)

variable {w v : World} {e : RenderError}

lemma inPass_ok {α : Type} {x : RenderM α} {a : α} (h : x (passWorld w) = .ok a v) :
    ∃ u, Unwound v u ∧ inPass x w = .ok a u := by
  refine ⟨{ v with host := { v.host with loopDepth := w.host.loopDepth } }, ⟨_, _, _, rfl⟩, ?_⟩
  unfold passWorld at h
  simp [inPass, h]

lemma finish_ending {x : RenderM Signal} (he : e.Ending) (target : Nat) (h : x w = .error e v) :
    finish target x w = .ok () v := by
  simp only [finish, h, Bind.bind, EStateM.bind, displayError_of_shown _ he.displayed]
  rfl

lemma Shows.action_eq {r : Renderer} {defs : Array Definition} {op : Operation} {u : World}
    {t : Task} (h : Shows r op w t v) (he : e.Ending) (hfails : t.FailsWith defs r e v u) :
    ∃ u', Unwound u u' ∧ op.action r w = .ok () u' := by
  cases h with
  | goTo hleave =>
    refine inPass_ok ?_
    rw [goTo_eq]
    simp only [Bind.bind, EStateM.bind, hleave]
    exact finish_ending he _ hfails
  | render | renderPassage => exact inPass_ok (finish_ending he _ hfails)

/-- A fatal error that a macro raises while something is shown, in the pass itself and not in a
script that calls macros, is shown once at the macro; and the operation ends with the world that
showing it leaves, but for the nesting, which is undone. -/
theorem fatal_error_ends_pass {s : Session} {op : Operation} {t : Task} {v : World}
    (hshows : Shows s.renderer op s.world t v) {rest : Nat} {spot : Spot} {template : Template} {w : World}
    (hwithin : Within s.setting s.definitions (levels s.setting.config) t v rest (.template spot template) w)
    {e : RenderError} {u : World}
    (hraises : Raises s.definitions (Render.renderer s.setting s.definitions rest) spot template w e u)
    (hfatal : e.isFatal = true) (hnew : e.displayed = false) :
    ∃ u', displayError spot.container e u = .ok { e with displayed := true } u' ∧
      u'.host.errors = u.host.errors.push { e with displayed := true } ∧ Unwound u' (s.perform op).world := by
  obtain ⟨u', hdisplay, herrors, htemplate⟩ := hraises.renderNode_eq hfatal hnew
  have he : RenderError.Ending { e with displayed := true } := ⟨hfatal, rfl⟩
  obtain ⟨v', hv', hfails⟩ := hwithin.fails he htemplate
  obtain ⟨v'', hv'', haction⟩ := hshows.action_eq he hfails
  refine ⟨u', hdisplay, herrors, ?_⟩
  rw [perform_eq_run]
  obtain ⟨setting, defs, world⟩ := s
  have hrun : op.action (Render.renderer setting defs (levels setting.config)) world = .ok () v'' := haction
  simp only [run, hrun]
  exact hv'.trans hv''

theorem endless_loop_in_element_ends_pass :
    let loc : Location := ⟨"main", 1⟩
    let loop : Template := .reference .constants "while" [.call [⟨"true", "true"⟩] "true"] (some [.text "x" loc]) loc
    let ts : List Template := [.element "b" .empty .empty [loop] loc, .text "after" loc]
    let constants := Bindings.ofList [("while", Value.macroDef 11 "while")]
    let s := Session.start (.ofList []) { maxLoopIterations := 0 } ⟨constants, Macros.builtins.toArray, true⟩ {} 1
    ∃ u u' : World, u'.host.errors = u.host.errors.push ⟨.tooManyIterations "while" 0, loc, none,
      true⟩ ∧ Unwound u' (s.perform (.render 0 0 .inline [] ts)).world := by
  intro loc loop ts constants s
  let r := Render.renderer s.setting s.definitions 1150
  let outside : Spot := { temp := 0, container := 0, mode := .inline, captures := [] }
  let inside : Spot := { outside with container := 1 }
  have hshows : Shows s.renderer (.render 0 0 .inline [] ts) s.world (.nodes outside ts) (passWorld s.world) := .render
  -- the loop begins when the element around it has been made
  have hwithin : ∃ w, Within s.setting s.definitions (levels s.setting.config) (.nodes outside ts)
      (passWorld s.world) 1150 (.template inside loop) w ∧ w.heap = s.world.heap :=
    ⟨_, .item rfl (by decide) (.here _ _ _) rfl (.call (.content rfl rfl) trivial
      (.item rfl (by decide) (.here _ _ _) rfl .here)), rfl⟩
  obtain ⟨w, hwithin, hheap⟩ := hwithin
  have hwhile : (w.heap.object s.setting.constants).get? "while" = some (.macroDef 11 "while") := by
    rw [hheap]
    rfl
  have hraises : ∃ u, Raises s.definitions r inside loop w ⟨.tooManyIterations "while" 0, loc, none, false⟩ u :=
    ⟨_, .intro (.reference (run_resolve_use r { inside with loc } (.inr ⟨_, rfl⟩) hwhile)) rfl rfl rfl rfl⟩
  obtain ⟨u, hraises⟩ := hraises
  obtain ⟨u', -, herrors, hend⟩ := fatal_error_ends_pass hshows hwithin hraises rfl rfl
  exact ⟨u, u', herrors, hend⟩

/-- A loop in a passage that an expression includes: the expression fails with the message of the
error, which is shown once more, and what follows the expression is rendered. -/
theorem fatal_error_called_from_expression_goes_on :
    let passages := Passages.ofList
      [⟨"p", "@while(true)\x7bx\x7d", [], 1⟩, ⟨"main", "a @(@include(\"p\")) b", [], 1⟩]
    let constants := Bindings.ofList
      [("", Value.macroDef 0 ""), ("include", .macroDef 4 "include"), ("while", .macroDef 11 "while")]
    let config : Config := { maxLoopIterations := 2 }
    let s := (Session.start passages config ⟨constants, Macros.builtins.toArray, true⟩ {} 1).goTo "main"
    s.stage.errors.toList.map RenderError.message =
        ["@while ran more than 2 iterations",
          "Error in expression `@include(\"p\")`: @while ran more than 2 iterations"] ∧
      s.document.textContent Document.root = "a xx@while ran more than 2 iterations" ++
        "Error in expression `@include(\"p\")`: @while ran more than 2 iterations b" := by
  decide +kernel

end StoryMarkup.Session
