import StoryMarkup.Proofs.Render.Readiness
import StoryMarkup.Proofs.Session.Budget

/-! Deferred work in a session: a callback begins with the bindings of its pass and rounds in its
scope. -/
namespace StoryMarkup.Session

open Render
open Script (Value)

inductive Due (r : Renderer) : Nat → List Nat → World → Nat → World → Prop
  | now : Turn (fun n => Render.fire r n .timer) (fun _ => true) due w number v → Due r rounds due w number v
  | later :
    (first :: more).forM (fun n => Render.fire r n .timer) w = .ok () w₁ → tick 0 w₁ = .ok due w₂ →
    Due r rounds due w₂ number v → Due r (rounds + 1) (first :: more) w number v

inductive Fires (r : Renderer) : Operation → World → Nat → Event → World → Prop
  | fire : Fires r (.fire number event) w number event w
  | trigger :
    Turn (fun n => Render.fire r n (.trigger name)) (fun _ => true) ((w.host.redoables.get? name).getD []) w number v →
    Fires r (.trigger name) w number (.trigger name) v
  | click : w.host.document.listener? node "click" = some number → Fires r (.click node) w number .click w
  | check :
    Render.modifyDocument (fun d => if checked then d.setAttribute node "checked" ""
      else d.removeAttribute node "checked") w = .ok () v →
    v.host.document.listener? node "change" = some number → Fires r (.check node checked) w number (.change checked) v
  | input :
    Render.modifyDocument (fun d => d.setAttribute node "value" text) w = .ok () v →
    v.host.document.listener? node "input" = some number → Fires r (.input node text) w number (.input text) v
  | timer :
    tick time w = .ok due w₁ → Due r r.setting.config.maxLoopIterations due w₁ number v →
    Fires r (.advance time) w number .timer v

/-- An operation enters a pass: what is to be done in it, in which world, and with which captured
bindings. -/
inductive Enters (r : Renderer) : Operation → World → Task → World → Captures → Prop
  | goTo : Enters r (.goTo passage) w (.visit passage) (passWorld w) []
  | render :
    Enters r (.render container temp mode captures ts) w (.nodes { temp, container, mode, captures }
      ts) (passWorld w) captures
  | renderPassage :
    Enters r (.renderPassage container temp mode captures name) w
      (.passage { temp, container, mode, captures } name) (passWorld w) captures
  | fired :
    Fires r op w number event v → v.host.callbacks.lookup number = some c →
    v.host.document.isAttached c.anchor = true →
    Enters r op w (.action c event) (passWorld (c.install number v)) c.captures

def Operation.HasScope (op : Operation) (w : World) : Prop :=
  match op with
  | .render _ temp _ _ _ | .renderPassage _ temp _ _ _ => temp < w.heap.objects.size
  | _ => True

inductive Lived (first : Session) : Session → Prop
  | start : Lived first first
  | perform : Lived first s → op.HasScope s.world → Lived first (s.perform op)

variable {K : Nat × Callback → Prop} {event : Event} {number : Nat} {entered : Captures}

section Accounts

variable {setting : Setting} {defs : Array Definition} {count temp : Nat} {r : Renderer} {w : World}
variable {v : World} {op : Operation} {m : Aspect} {s : Stage}

lemma drawing_tick (time : Nat) : Drawing (tick time) := fun w =>
  ⟨(w.host.document.advance time).1, _, .advance _ _, fun _ => rfl⟩

lemma redrawn_check (d : Document) (node : Nat) (checked : Bool) :
    d.Redrawn (if checked then d.setAttribute node "checked" "" else d.removeAttribute node "checked") := by
  cases checked with
  | true => exact .setAttribute _ _ _ _
  | false => exact .removeAttribute _ _ _

lemma adds_runTimers (rounds : Nat) (due : List Nat)
    (hfire : ∀ number v, Due r rounds due w number v → Adds .scopes [number] temp K
    (Render.fire r number .timer) v) : Adds .scopes [] temp K (runTimers r rounds due) w := by
  have hnow : Adds .scopes [] temp K (due.forM fun n => Render.fire r n .timer) w :=
    (Adds.firings due fun number v hturn => hfire number v (.now hturn)).unnumbered
  induction rounds generalizing due w with
  | zero =>
    cases due with
    | nil => exact .pure _
    | cons first more => exact hnow
  | succ rounds ih =>
    cases due with
    | nil => exact .pure _
    | cons first more =>
      refine hnow.bind fun _ w₁ hw₁ => .bind (.drawing (drawing_tick 0)) fun due w₂ hw₂ => ?_
      have hlater : ∀ number v, Due r rounds due w₂ number v → Adds .scopes [number] temp K
        (Render.fire r number .timer) v :=
        fun number v hdue => hfire number v (.later hw₁ hw₂ hdue)
      exact ih due hlater (Adds.firings due fun number v hturn => hlater number v (.now hturn)).unnumbered

lemma adds_dispatch {node : Nat} {listener : String}
    (hfire : ∀ number, w.host.document.listener? node listener = some number →
      Adds .scopes [number] temp K (Render.fire r number event) w) :
    Adds .scopes [] temp K (dispatch r node listener event) w := by
  refine .bind_stage ?_
  cases hnumber : w.host.document.listener? node listener with
  | none => exact .pure _
  | some number => exact (hfire number hnumber).unnumbered

/-- A callback that is made in the course of a pass which the operation enters. -/
def Brings (setting : Setting) (defs : Array Definition) (count : Nat) (r : Renderer)
    (op : Operation) (w : World) (p : Nat × Callback) : Prop :=
  ∃ t v entered, Enters r op w t v entered ∧ Account setting defs count t v ⟨entered, []⟩ p

lemma adds_pass {α : Type} {t : Task} {scope : Nat} {x : RenderM α}
    (henters : Enters r op w t v entered) (hx : Does setting defs .scopes count scope t x) :
    Adds .scopes [] scope (Brings setting defs count r op w) x v :=
  (hx v ⟨entered, []⟩).mono fun _ hp => ⟨t, v, entered, henters, hp⟩

lemma adds_fire (h : Accountable setting defs .scopes count r) (hfires : Fires r op w number event v) :
    Adds .scopes [number] temp (Brings setting defs count r op w) (Render.fire r number event) v :=
  .fire fun c hc hanchor => adds_pass (.fired hfires hc hanchor) (h.runAction c event)

lemma adds_action (h : Accountable setting defs .scopes count r) (op : Operation) (hop : op.HasScope w) :
    Adds .scopes [] temp (Brings setting defs count r op w) (op.action r) w := by
  have hfire {number : Nat} {event : Event} {v : World} (hfires : Fires r op w number event v) :
      Adds .scopes [number] temp (Brings setting defs count r op w) (Render.fire r number event) v := adds_fire h hfires
  cases op with
  | goTo passage => exact .inPass (adds_pass .goTo (h.goTo temp passage))
  | render container scope mode captures ts =>
    exact .rescope (fun _ => hop)
      (.inPass (.finish _ (adds_pass .render (h.nodes { temp := scope, container, mode, captures } ts))))
  | renderPassage container scope mode captures name =>
    exact .rescope (fun _ => hop)
      (.inPass (.finish _ (adds_pass .renderPassage (h.passage { temp := scope, container, mode, captures } name))))
  | fire number event => exact (hfire .fire).unnumbered
  | trigger name => exact .trigger fun number v hturn => hfire (.trigger hturn)
  | click node => exact adds_dispatch fun number hnumber => hfire (.click hnumber)
  | check node checked =>
    exact .bind (.drawing (.modifyDocument fun d => redrawn_check d node checked)) fun _ v hv =>
      adds_dispatch fun number hnumber =>
      hfire (.check hv hnumber)
  | input node text =>
    exact .bind (.drawing (.modifyDocument fun _ => .setAttribute _ _ _ _)) fun _ v hv =>
      adds_dispatch fun number hnumber =>
      hfire (.input hv hnumber)
  | advance time =>
    exact .bind (.drawing (drawing_tick time)) fun due v hv => adds_runTimers _ _ fun number u hdue =>
      hfire (.timer hv hdue)

/-! What is there when a callback is fired. -/

lemma extends_of_ok {α : Type} {nums : List Nat} {x : RenderM α} {a : α} (hx : Adds .scopes nums temp K x w)
    (hok : x w = .ok a v) (hw : Ready temp w) : Extends K w v := by
  have hext : Extends K w (ending (x w)) := hx hw
  rwa [hok] at hext

lemma extends_of_turn {f : Nat → RenderM Unit} {nums : List Nat}
    (hf : ∀ n u, Turn f (fun _ => true) nums w n u → Adds .scopes [n] temp K (f n) u)
    (hturn : Turn f (fun _ => true) nums w number v) (hw : Ready temp w) : Extends K w v := by
  induction hturn with
  | first => exact .refl _
  | next hfirst _ _ ih =>
    have hext := extends_of_ok (hf _ _ .first) hfirst hw
    exact hext.trans (ih (fun n u hn => hf n u (.next hfirst rfl hn)) (hext.ready hw))

lemma extends_of_due {rounds : Nat} {due : List Nat}
    (hfire : ∀ n u, Due r rounds due w n u → Adds .scopes [n] temp K (Render.fire r n .timer) u)
    (hdue : Due r rounds due w number v) (hw : Ready temp w) : Extends K w v := by
  induction hdue with
  | now hturn => exact extends_of_turn (fun n u hn => hfire n u (.now hn)) hturn hw
  | @later _ _ w w₁ _ w₂ _ _ _ hw₁ hw₂ _ ih =>
    have hfirst := extends_of_ok (Adds.firings _ fun n u hn => hfire n u (.now hn)) hw₁ hw
    have hticked : Extends K w₁ w₂ := extends_of_ok (.drawing (drawing_tick 0)) hw₂ (hfirst.ready hw)
    have hext := hfirst.trans hticked
    exact hext.trans (ih (fun n u hn => hfire n u (.later hw₁ hw₂ hn)) (hext.ready hw))

lemma extends_of_fires (h : Accountable setting defs .scopes count r) (hfires : Fires r op w number event v)
    (hw : Ready temp w) : Extends (Brings setting defs count r op w) w v := by
  cases hfires with
  | fire => exact .refl _
  | trigger hturn => exact extends_of_turn (fun n u hn => adds_fire h (.trigger hn)) hturn hw
  | click => exact .refl _
  | check hv => exact extends_of_ok (.drawing (.modifyDocument fun d => redrawn_check d _ _)) hv hw
  | input hv => exact extends_of_ok (.drawing (.modifyDocument fun _ => .setAttribute _ _ _ _)) hv hw
  | @timer time _ _ w₁ _ _ htick hdue =>
    have hticked : Extends (Brings setting defs count r (.advance time) w) w w₁ := extends_of_ok
      (.drawing (drawing_tick _)) htick hw
    exact hticked.trans (extends_of_due (fun n u hn => adds_fire h (.timer htick hn)) hdue (hticked.ready hw))

lemma Due.lasts (h : Accountable setting defs m count r) {rounds : Nat} {due : List Nat}
    (hdue : Due r rounds due w number v) (hw : m.Lasts s temp w) : m.Lasts s temp v := by
  induction hdue with
  | now hturn => exact hturn.lasts (fun n => h.keeps_fire n .timer) hw
  | later hw₁ hw₂ _ ih =>
    have hafter := Keeps.lasts (fun _ => .firings _ fun n v _ => h.keeps_fire n .timer v) hw₁ hw
    exact ih (Keeps.lasts (.drawing (drawing_tick 0)) hw₂ hafter)

lemma Fires.lasts (h : Accountable setting defs m count r) (hfires : Fires r op w number event v)
    (hw : m.Lasts s temp w) : m.Lasts s temp v := by
  cases hfires with
  | fire => exact hw
  | trigger hturn => exact hturn.lasts (fun n => h.keeps_fire n _) hw
  | click => exact hw
  | check hv => exact Keeps.lasts (.drawing (.modifyDocument fun d => redrawn_check d _ _)) hv hw
  | input hv => exact Keeps.lasts (.drawing (.modifyDocument fun _ => .setAttribute _ _ _ _)) hv hw
  | timer hdue hw₁ => exact hw₁.lasts h (Keeps.lasts (.drawing (drawing_tick _)) hdue hw)

lemma Enters.prepared (h : Accountable setting defs m count r) {t : Task} (henters : Enters r op w t v entered)
    (hop : m = .scopes → op.HasScope w) (hw : m.Lasts s temp w) : t.Prepared m s v := by
  have hpass : m.Lasts s temp (passWorld w) := hw.enter (Nat.le_refl _) rfl rfl rfl rfl
  cases henters with
  | goTo => exact ⟨temp, hpass⟩
  | render | renderPassage => exact hpass.rescope hop
  | fired hfires hc _ => exact prepared_action (hfires.lasts h hw) hc

lemma Enters.captures_eq {t : Task} (h : Enters r op w t v entered) : t.captures = entered := by
  cases h <;> rfl

end Accounts

section Lives

variable {s : Session}

lemma mem_builtins (hdefs : s.definitions = Macros.builtins.toArray) : ∀ d ∈ s.definitions, d ∈ Macros.builtins := by
  intro d hd
  rw [hdefs] at hd
  simpa using hd

lemma accountable {m : Aspect} (hdefs : s.definitions = Macros.builtins.toArray) :
    Accountable s.setting s.definitions m (levels s.setting.config) s.renderer :=
  accountable_renderer (mem_builtins hdefs) _

lemma world_perform (s : Session) (op : Operation) :
    (s.perform op).world = ending (op.action s.renderer s.world) := by
  rw [perform_eq_run]
  obtain ⟨setting, defs, world⟩ := s
  simp only [run, renderer]
  cases op.action (Render.renderer setting defs (levels setting.config)) world <;> rfl

lemma Lived.ready {first : Session} (hlived : Lived first s) {temp : Nat}
    (hdefs : first.definitions = Macros.builtins.toArray) (hfirst : Ready temp first.world) :
    s.definitions = Macros.builtins.toArray ∧ Ready temp s.world := by
  induction hlived with
  | start => exact ⟨hdefs, hfirst⟩
  | @perform s op _ hop ih =>
    obtain ⟨hdefs, hready⟩ := ih
    refine ⟨(definitions_perform s op).trans hdefs, ?_⟩
    rw [world_perform]
    exact Extends.ready (adds_action (accountable hdefs) op hop hready) hready

end Lives

/-- Deferred work sees its own round. Every callback that is made in the course of a pass which an
operation enters carries the bindings that the pass was entered with followed by those of the rounds
around the place where it is made, also if it is fired and gone before the operation ends. Every
callback that the operation leaves behind, or that is there when one is fired, was there before, or
was made so, or for a link in the text. Firing a callback begins its work with its bindings
installed; and whenever that happens, its scope reads the latest value of each name that it has
captured. -/
theorem deferred_work_sees_its_round (passages : Passages) (config : Config)
    (constants : Bindings Value) (heap : Script.Heap) (seed : UInt64) {s : Session}
    (hlived : Lived (start passages config ⟨constants, Macros.builtins.toArray, true⟩ heap seed) s) {op : Operation}
    (hop : op.HasScope s.world) : let comesTo := Comes s.setting s.definitions (levels s.setting.config)
    (∀ first v entered rest t w place p, Enters s.renderer op s.world first v entered →
      comesTo first v ⟨entered, []⟩ rest t w place →
      Registers (Render.renderer s.setting s.definitions rest) t w p → p.2.captures = place.entered ++ place.rounds) ∧
    (∀ p, (p ∈ (s.perform op).stage.callbacks ∨
        ∃ number event v, Fires s.renderer op s.world number event v ∧ p ∈ v.host.callbacks) → p ∈ s.stage.callbacks ∨
      ∃ first v entered rest t w place, Enters s.renderer op s.world first v entered ∧
        comesTo first v ⟨entered, []⟩ rest t w place ∧
        (Navigates t w p ∨
          Registers (Render.renderer s.setting s.definitions rest) t w p ∧
            p.2.captures = place.entered ++ place.rounds)) ∧
    (∀ r number event v c, v.host.callbacks.lookup number = some c →
      v.host.document.isAttached c.anchor = true → Render.fire r number event v = (do
        inPass (runAction r c event)
        modifyScope c.temp fun fields => Captures.restore fields (c.captures.install (v.heap.object c.temp)).1)
        (c.install number v)) ∧
    (∀ first v entered rest c event w place, Enters s.renderer op s.world first v entered →
      comesTo first v ⟨entered, []⟩ rest (.action c event) w place →
      ∀ name value, c.captures.get? name = some value → (w.heap.object c.temp).get? name = some value) := by
  intro comesTo
  have hstart : Ready 0 (start passages config ⟨constants, Macros.builtins.toArray, true⟩ heap seed).world :=
    ⟨by simp [start], fun _ hp => nomatch hp⟩
  obtain ⟨hdefs, hready⟩ := hlived.ready rfl hstart
  have h := @accountable s .scopes hdefs
  have hlasts : Aspect.scopes.Lasts s.stage 0 s.world := hready
  have hcaptures {first v entered rest t w place p}
      (henters : Enters s.renderer op s.world first v entered)
      (hcomes : comesTo first v ⟨entered, []⟩ rest t w place)
      (hregisters : Registers (Render.renderer s.setting s.definitions rest) t w p) :
      p.2.captures = place.entered ++ place.rounds := by
    have hfirst : first.captures = (⟨entered, []⟩ : Standing).captures := by
      rw [henters.captures_eq]
      exact (List.append_nil _).symm
    exact hregisters.captures_eq.trans (hcomes.captures_eq hfirst)
  refine ⟨fun _ _ _ _ _ _ _ _ => hcaptures, ?_, fun r number event v c hc hanchor => fire_eq r event hc hanchor, ?_⟩
  · intro p hp
    have hmade : p ∈ s.stage.callbacks ∨
        Brings s.setting s.definitions (levels s.setting.config) s.renderer op s.world p := by
      obtain hp | ⟨number, event, v, hfires, hp⟩ := hp
      · have hext := adds_action h op hop hready
        rw [← world_perform] at hext
        exact (Extends.callbacks hext p hp).imp_right And.right
      · exact ((extends_of_fires h hfires hready).callbacks p hp).imp_right And.right
    refine hmade.imp id ?_
    rintro ⟨first, v, entered, henters, rest, t, w, place, hcomes, hregisters | hnavigates⟩
    · exact ⟨first, v, entered, rest, t, w, place, henters, hcomes,
        .inr ⟨hregisters, hcaptures henters hcomes hregisters⟩⟩
    · exact ⟨first, v, entered, rest, t, w, place, henters, hcomes, .inl hnavigates⟩
  · intro first v entered rest c event w place henters hcomes
    have hprepared := hcomes.prepared (mem_builtins hdefs) (henters.prepared h (fun _ => hop) hlasts)
    exact hprepared.2 rfl

/-- What is put off in the rounds of a loop carries the items of the loop. -/
theorem later_in_loop_carries_its_item : let text := "@for(_x of [\"a\",\"b\"])\x7b@later\x7b_x\x7d\x7d"
    let constants := Bindings.ofList [("for", Value.macroDef 12 "for"), ("later", .macroDef 15 "later")]
    let s := start (Passages.ofList [⟨"main", text, [], 1⟩]) {} ⟨constants, Macros.builtins.toArray, true⟩ {} 1
    let op := Operation.goTo "main"
    let shown := s.perform op
    op.HasScope s.world ∧
      (shown.stage.callbacks.map fun p => p.2.captures.map fun (name, v) =>
        (name, shown.world.heap.display v)) = [[("x", "b")], [("x", "a")]] ∧
      ∀ p ∈ shown.stage.callbacks, ∃ t w, Navigates t w p ∨ ∃ r, Registers r t w p := by
  intro text constants s op shown
  refine ⟨trivial, by decide +kernel, fun p hp => ?_⟩
  have hcallbacks := (@deferred_work_sees_its_round (Passages.ofList [⟨"main", text, [], 1⟩])
    {} constants {} 1 s .start op trivial).2.1
  obtain hold | ⟨_, _, _, _, t, w, _, -, -, hmade⟩ := hcallbacks p (.inl hp)
  · nomatch hold
  · exact ⟨t, w, hmade.imp id fun ⟨hregisters, _⟩ => ⟨_, hregisters⟩⟩

end StoryMarkup.Session
