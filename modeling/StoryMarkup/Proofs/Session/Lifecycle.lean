import StoryMarkup.Proofs.Session.DeferredWork

/-! The life of callbacks: made under a number of its own, each waits, and runs when it is fired. -/
namespace StoryMarkup.Session

open List Render
open Script (Value)
variable {number : Nat} {event : Event} {op : Operation} {c : Callback} {v w : World}

def withDocument (w : World) (document : Document) : World := { w with host := { w.host with document } }

def ready? (w : World) (number : Nat) : Option Callback :=
  (w.host.callbacks.lookup number).filter fun c => w.host.document.isAttached c.anchor

def firings (r : Renderer) (event : Event) : List Nat → World → List (Nat × Callback)
  | [], _ => []
  | number :: rest, w =>
    ((ready? w number).map (number, ·)).toList ++ firings r event rest (ending (Render.fire r number event w))

def timerFirings (r : Renderer) : Nat → List Nat → World → List (Nat × Callback)
  | _, [], _ => []
  | 0, due, w => firings r .timer due w
  | rounds + 1, due, w =>
    let after := ending ((due.forM fun number => Render.fire r number .timer) w)
    let (next, document) := after.host.document.advance 0
    firings r .timer due w ++ timerFirings r rounds next (withDocument after document)

def listenerFirings (r : Renderer) (node : Nat) (listener : String) (event : Event) (w : World) : List (Nat × Callback) :=
  firings r event (w.host.document.listener? node listener).toList w

def Operation.firings (op : Operation) (r : Renderer) (w : World) : List (Nat × Callback) :=
  let d := w.host.document
  match op with
  | .goTo _ | .render .. | .renderPassage .. => []
  | .fire number event => Session.firings r event [number] w
  | .trigger name => Session.firings r (.trigger name) (w.host.listed name) w
  | .click node => listenerFirings r node "click" .click w
  | .check node checked =>
    let drawn := if checked then d.setAttribute node "checked" "" else d.removeAttribute node "checked"
    listenerFirings r node "change" (.change checked) (withDocument w drawn)
  | .input node text => listenerFirings r node "input" (.input text) (withDocument w (d.setAttribute node "value" text))
  | .advance time =>
    let (due, document) := d.advance time
    timerFirings r r.setting.config.maxLoopIterations due (withDocument w document)

def history : Session → List Operation → List (Nat × Callback)
  | _, [] => []
  | s, op :: rest => op.firings s.renderer s.world ++ history (s.perform op) rest

def Operation.named : Operation → List Nat
  | .fire number _ => [number]
  | _ => []

/-- What operations fire by number waits in the document. -/
def Permitted : Session → List Operation → Prop
  | _, [] => True
  | s, op :: rest => (∀ number ∈ op.named, s.stage.Waits number) ∧ Permitted (s.perform op) rest

/-! One callback after the other. -/

structure Ran (named : List Nat) (runs : List (Nat × Callback)) (s t : Stage) : Prop where
  later : Later s t
  sound : Sound t
  unspent : ∀ p ∈ runs, ¬ s.Spent p.1
  spent : ∀ p ∈ runs, p.2.once = true → t.Spent p.1
  once : runs.Pairwise fun p q => p.2.once = true → q.1 ≠ p.1
  whole : Whole s → (∀ number ∈ named, s.Free number) → Whole t

namespace Ran

variable {named more : List Nat} {runs runs' : List (Nat × Callback)} {s t u : Stage}

lemma of_course (h : Course named s t) (hs : Sound s) : Ran named [] s t :=
  ⟨h.later, h.sound hs, nofun, nofun, .nil, fun hwhole hfree => h.whole hwhole hfree⟩

lemma append (h : Ran named runs s t) (h' : Ran more runs' t u) : Ran (named ++ more) (runs ++ runs') s u where
  later := h.later.trans h'.later
  sound := h'.sound
  unspent := fun p hp => (mem_append.1 hp).elim (h.unspent p) fun hnew hspent => h'.unspent p hnew (h.later.spent hspent)
  spent := fun p hp honce => (mem_append.1 hp).elim (fun hold => h'.later.spent (h.spent p hold honce)) fun hnew =>
    h'.spent p hnew honce
  once := pairwise_append.2 ⟨h.once, h'.once, fun p hp q hq honce heq =>
    h'.unspent q hq (heq ▸ h.spent p hp honce)⟩
  whole := fun hwhole hfree =>
    h'.whole (h.whole hwhole fun number hn => hfree number (mem_append_left _ hn)) fun number hn =>
      h.later.free (hfree number (mem_append_right _ hn))

lemma free (h : Ran named runs s t) (hfree : ∀ number ∈ named, s.Free number) : Ran [] runs s t :=
  { h with whole := fun hwhole _ => h.whole hwhole hfree }

end Ran

section Firings

variable {setting : Setting} {defs : Array Definition} {count : Nat} {r : Renderer} {w : World}
variable (h : Accountable setting defs .tables count r)
include h

lemma course_fire (hw : 0 < w.host.document.nodes.size) (hc : w.host.callbacks.lookup number = some c)
    (hanchor : w.host.document.isAttached c.anchor = true) :
    Course [] (if c.once then w.host.without number else w.host) (ending (Render.fire r number event w)).host := by
  have hrun : Keeps .tables [] c.temp (do
      inPass (runAction r c event)
      modifyScope c.temp fun fields => Captures.restore fields (c.captures.install (w.heap.object c.temp)).1) :=
    fun _ => .bind (.inPass ((h.runAction c event).keeps _)) fun _ _ _ => .modifyScope _ _
  rw [fire_eq r event hc hanchor, ← c.host_install]
  exact hrun (c.install number w) hw

lemma ran_fire (number : Nat) (event : Event) (hw : Sound w.host) :
    Ran [number] ((ready? w number).map (number, ·)).toList w.host (ending (Render.fire r number event w)).host := by
  have hkeeps : Keeps .tables [number] 0 (Render.fire r number event) := h.keeps_fire number event
  have hcourse : Course [number] w.host (ending (Render.fire r number event w)).host := hkeeps w hw.nodes_pos
  cases hready : ready? w number with
  | none => exact .of_course hcourse hw
  | some c =>
    obtain ⟨hc, hanchor⟩ := Option.filter_eq_some_iff.1 hready
    have hmem := mem_of_lookup hc
    refine { Ran.of_course hcourse hw with unspent := ?_, spent := ?_, once := pairwise_singleton _ _ }
    · intro p hp hspent
      cases mem_singleton.1 hp
      exact hspent.gone ⟨c, hmem⟩
    · rintro p hp (honce : p.2.once = true)
      cases mem_singleton.1 hp
      have hafter : Course [] _ (ending (Render.fire r number event w)).host := course_fire h hw.nodes_pos hc hanchor
      rw [if_pos honce] at hafter
      refine hafter.later.spent ⟨hw.numbers_le _ hmem, fun ⟨c', hc'⟩ => ?_⟩
      simpa using (mem_filter.1 hc').2

lemma ran_firings (event : Event) (nums : List Nat) (hw : Sound w.host) :
    Ran nums (firings r event nums w) w.host
      (ending ((nums.forM fun number => Render.fire r number event) w)).host := by
  induction nums generalizing w with
  | nil => exact .of_course .done hw
  | cons number rest ih =>
    have hfirst := ran_fire h number event hw
    obtain ⟨_, v, hv⟩ := Completes.fire r number event w
    have heq : ((number :: rest).forM fun number => Render.fire r number event) w =
        (rest.forM fun number => Render.fire r number event) v := by
      change (Render.fire r number event >>= fun _ => rest.forM fun number => Render.fire r number event) w = _
      simp [Bind.bind, EStateM.bind, hv]
    rw [heq, firings]
    rw [hv] at hfirst ⊢
    exact hfirst.append (ih hfirst.sound)

omit h in
lemma ran_withDocument {document : Document} (hdrawn : w.host.document.Redrawn document) (hw : Sound w.host) :
    Ran [] [] w.host (withDocument w document).host :=
  .of_course (.of_step (.thin (.of_redrawn hdrawn rfl rfl rfl))) hw

omit h in
lemma free_due {time : Nat} (hw : Sound w.host) (hdue : number ∈ (w.host.document.advance time).1) :
    (withDocument w (w.host.document.advance time).2).host.Free number :=
  (ran_withDocument (.advance _ _) hw).later.free (hw.waits number (.inr (Document.mem_timers_of_due hdue)))

lemma ran_runTimers (rounds : Nat) (due : List Nat) (hw : Sound w.host) :
    Ran due (timerFirings r rounds due w) w.host (ending (runTimers r rounds due w)).host := by
  induction rounds generalizing due w with
  | zero =>
    cases due with
    | nil => exact .of_course .done hw
    | cons first more => exact ran_firings h .timer (first :: more) hw
  | succ rounds ih =>
    cases due with
    | nil => exact .of_course .done hw
    | cons first more =>
      obtain ⟨_, v, hv⟩ := Completes.forM (fun number => Completes.fire r number .timer) (first :: more) w
      have heq : runTimers r (rounds + 1) (first :: more) w =
          runTimers r rounds (v.host.document.advance 0).1 (withDocument v (v.host.document.advance 0).2) := by
        simp only [runTimers, Bind.bind, EStateM.bind, hv]
        rfl
      have hround : Ran (first :: more) (firings r .timer (first :: more) w) w.host v.host := by
        have hfired := ran_firings h .timer (first :: more) hw
        rw [hv] at hfired
        exact hfired
      have hticked : Ran [] [] v.host (withDocument v (v.host.document.advance 0).2).host :=
        ran_withDocument (.advance _ _) hround.sound
      have hrest := (ih (v.host.document.advance 0).1 hticked.sound).free fun number hn => free_due hround.sound hn
      have hall := hround.append (hticked.append hrest)
      rw [append_nil, append_nil] at hall
      rw [heq, timerFirings, hv]
      · exact hall
      · exact nofun

lemma ran_dispatch (node : Nat) (listener : String) (event : Event) (hw : Sound w.host) :
    Ran [] (listenerFirings r node listener event w) w.host (ending (dispatch r node listener event w)).host := by
  unfold dispatch listenerFirings
  rw [bind_stage]
  cases hnumber : w.host.document.listener? node listener with
  | none => exact .of_course .done hw
  | some number =>
    have hfired := ran_fire h number event hw
    rw [Option.toList_some, firings, firings, append_nil]
    refine hfired.free fun n hn => ?_
    rw [mem_singleton.1 hn]
    exact hw.waits number (.inl ⟨node, listener, Document.mem_listeners_of_listener? hnumber⟩)

lemma ran_drawn_dispatch (f : Document → Document) (hf : w.host.document.Redrawn (f w.host.document)) (node : Nat)
    (listener : String) (event : Event) (hw : Sound w.host) :
    Ran [] (listenerFirings r node listener event (withDocument w (f w.host.document))) w.host
      (ending ((do Render.modifyDocument f; dispatch r node listener event) w)).host := by
  have hdrawn := ran_withDocument hf hw
  exact hdrawn.append (ran_dispatch h node listener event hdrawn.sound)

lemma ran_trigger (name : String) (hw : Sound w.host) :
    Ran [] (firings r (.trigger name) (w.host.listed name) w) w.host (ending (Render.trigger r name w)).host := by
  have hfired := ran_firings h (.trigger name) (w.host.listed name) hw
  have hkeeps : Keeps .tables [] 0 (Render.trigger r name) := h.keeps_trigger name
  refine { Ran.of_course (hkeeps w hw.nodes_pos) hw with
    unspent := hfired.unspent, spent := fun p hp honce => ?_, once := hfired.once }
  rw [host_trigger]
  exact (Later.settled _ name).spent (hfired.spent p hp honce)

lemma ran_action (op : Operation) (hw : Sound w.host) :
    Ran op.named (op.firings r w) w.host (ending (op.action r w)).host := by
  have hpass {temp : Nat} {x : RenderM Unit} (hx : Keeps .tables [] temp x) :
      Ran [] [] w.host (ending (inPass x w)).host :=
    .of_course (Adds.inPass (hx _) hw.nodes_pos) hw
  cases op with
  | goTo passage => exact hpass (h.goTo 0 passage).keeps
  | render container temp mode captures ts => exact hpass fun _ => .finish _ ((h.nodes _ ts).keeps _)
  | renderPassage container temp mode captures name => exact hpass fun _ => .finish _ ((h.passage _ name).keeps _)
  | fire number event =>
    have hfired := ran_fire h number event hw
    rw [← append_nil (Option.toList _)] at hfired
    exact hfired
  | trigger name => exact ran_trigger h name hw
  | click node => exact ran_dispatch h node "click" .click hw
  | check node checked =>
    exact ran_drawn_dispatch h (fun d => if checked then d.setAttribute node "checked" "" else d.removeAttribute node "checked")
      (redrawn_check _ node checked) node "change" (.change checked) hw
  | input node text =>
    exact ran_drawn_dispatch h (·.setAttribute node "value" text) (.setAttribute _ _ _ _) node "input" (.input text) hw
  | advance time =>
    have hticked : Ran [] [] w.host (withDocument w (w.host.document.advance time).2).host :=
      ran_withDocument (.advance _ _) hw
    have hrest := ran_runTimers h r.setting.config.maxLoopIterations (w.host.document.advance time).1 hticked.sound
    exact hticked.append (hrest.free fun number hn => free_due hw hn)

omit h in
lemma callbacks_leavePassage {name : String} {temp : Nat} (hw : Sound w.host)
    (hleave : leavePassage name w = .ok temp v) : v.host.callbacks = [] ∧ v.host.created = w.host.created := by
  cases hleave
  refine ⟨filter_eq_nil_iff.2 fun p hp => ?_, rfl⟩
  have hdetached := Document.isAttached_clear_root hw.linked (hw.anchors p hp)
  exact fun hattached => Bool.false_ne_true (hdetached.symm.trans hattached)

lemma created_lt_of_goTo {passage : String} (hw : Sound w.host) :
    ∀ p ∈ (ending ((Operation.goTo passage).action r w)).host.callbacks, w.host.created < p.1 := by
  have hcallbacks : (ending ((Operation.goTo passage).action r w)).host.callbacks =
      (ending (Render.goTo r passage (passWorld w))).host.callbacks := by
    simp only [Operation.action, inPass, passWorld]
    split <;> (rename_i hx; rw [hx]; rfl)
  have hstart : Aspect.tables.Lasts w.host 0 w := ⟨hw, .refl _⟩
  have hpass : Since w.host (passWorld w) := hstart.enter (Nat.le_refl _) rfl rfl rfl rfl
  obtain ⟨temp, v, hleave⟩ : ∃ temp v, leavePassage passage (passWorld w) = .ok temp v := ⟨_, _, rfl⟩
  have hleft : Since w.host v := @Keeps.lasts _ _ .tables w.host 0 _ _ _ _ _ (fun _ => .leavePassage passage) hleave hpass
  obtain ⟨hempty, hcreated⟩ := callbacks_leavePassage hpass.sound hleave
  let spot : Spot := { temp, container := Document.root, mode := r.setting.config.defaultMode }
  have hshown : Course [] v.host (ending (finish Document.root (r.passage spot passage) v)).host :=
    Adds.finish _ ((h.passage spot passage).keeps v) hleft.sound.nodes_pos
  intro p hp
  have hgoTo : Render.goTo r passage (passWorld w) = finish Document.root (r.passage spot passage) v := by
    rw [goTo_eq]
    simp only [Bind.bind, EStateM.bind, hleave]
    rfl
  rw [hcallbacks, hgoTo] at hp
  obtain hold | hnew := hshown.later.callbacks p hp
  · rw [hempty] at hold
    cases hold
  · rw [hcreated] at hnew
    exact hnew

end Firings

/-! What is entered is in the history. -/

section Entered

variable {r : Renderer} {w v : World} {c : Callback}

lemma mem_firings {nums : List Nat}
    (hturn : Turn (fun n => Render.fire r n event) (fun _ => true) nums w number v) (hc : ready? v number = some c) :
    (number, c) ∈ firings r event nums w := by
  induction hturn with
  | first => exact mem_append_left _ (by simp [hc])
  | next hfirst _ _ ih =>
    refine mem_append_right _ ?_
    rw [hfirst]
    exact ih hc

lemma mem_timerFirings {rounds : Nat} {due : List Nat} (hdue : Due r rounds due w number v)
    (hc : ready? v number = some c) : (number, c) ∈ timerFirings r rounds due w := by
  induction hdue with
  | @now due w number v rounds hturn =>
    have hmem := mem_firings hturn hc
    cases due with
    | nil => nomatch hmem
    | cons first more =>
      cases rounds with
      | zero => exact hmem
      | succ rounds => exact mem_append_left _ hmem
  | later hround htick _ ih =>
    refine mem_append_right _ ?_
    rw [hround]
    cases htick
    exact ih hc

lemma mem_listenerFirings {node : Nat} {listener : String}
    (hnumber : w.host.document.listener? node listener = some number) (hc : ready? w number = some c) :
    (number, c) ∈ listenerFirings r node listener event w := by
  unfold listenerFirings
  rw [hnumber]
  exact mem_firings .first hc

/-- An operation that enters a pass for a callback has the callback among those it runs. -/
theorem mem_firings_of_fires (hfires : Fires r op w number event v) (hc : ready? v number = some c) :
    (number, c) ∈ op.firings r w := by
  cases hfires with
  | fire => exact mem_firings .first hc
  | trigger hturn => exact mem_firings hturn hc
  | click hnumber => exact mem_listenerFirings hnumber hc
  | check hdrawn hnumber | input hdrawn hnumber =>
    cases hdrawn
    exact mem_listenerFirings hnumber hc
  | timer htick hdue =>
    cases htick
    exact mem_timerFirings hdue hc

end Entered

lemma once_eq_false {setting : Setting} {defs : Array Definition} {count : Nat} {r : Renderer}
    (h : Accountable setting defs .tables count r) {t : Task} {link : Link}
    (hcall : Calls defs r t w link (.action c event) v) (hw : Sound w.host) : c.once = false := by
  cases hcall with
  | redo hturn hturn' hc =>
    have hstart : Aspect.tables.Lasts w.host 0 w := ⟨hw, .refl _⟩
    have hbefore : Since w.host _ :=
      hturn.lasts (fun v _ => .bind (.drawing (.display v)) fun name _ _ => h.keeps_trigger name _) hstart
    have hagain : Aspect.tables.Lasts _ 0 _ := ⟨hbefore.sound, .refl _⟩
    have hafter : Since _ _ := hturn'.lasts (fun n => h.keeps_fire n _) hagain
    -- the callback was in the table when its name was triggered: its number had been given out
    obtain hold | hnew := hafter.later.callbacks _ (mem_of_lookup hc)
    · exact hbefore.sound.regions _ _ _ hturn'.mem hold
    · exact absurd (hbefore.sound.listed_le _ _ hturn'.mem) (Nat.not_le_of_lt hnew)

lemma Prepared.since {s : Stage} {t : Task} (h : t.Prepared .tables s w) : Since s w := by
  cases t with
  | action c event => exact h.1
  | visit passage =>
    obtain ⟨_, hsince⟩ := h
    exact hsince
  | _ => exact h

/-! Sessions. -/

structure InOrder (s : Session) : Prop where
  definitions_eq : s.definitions = Macros.builtins.toArray
  sound : Sound s.stage

section InOrder

variable {s : Session}

lemma ran_perform (h : InOrder s) (op : Operation) :
    Ran op.named (op.firings s.renderer s.world) s.stage (s.perform op).stage := by
  have hran := ran_action (accountable h.definitions_eq) op h.sound
  rw [← world_perform] at hran
  exact hran

lemma InOrder.perform (h : InOrder s) (op : Operation) : InOrder (s.perform op) :=
  ⟨(definitions_perform s op).trans h.definitions_eq, (ran_perform h op).sound⟩

lemma InOrder.foldl_perform (h : InOrder s) (ops : List Operation) : InOrder (ops.foldl Session.perform s) := by
  induction ops generalizing s with
  | nil => exact h
  | cons op rest ih => exact ih (h.perform op)

lemma ran_history (h : InOrder s) (ops : List Operation) :
    ∃ named, Ran named (history s ops) s.stage (ops.foldl Session.perform s).stage ∧
      (Permitted s ops → Whole s.stage → Whole (ops.foldl Session.perform s).stage) := by
  induction ops generalizing s with
  | nil => exact ⟨[], .of_course .done h.sound, fun _ hwhole => hwhole⟩
  | cons op rest ih =>
    have hfirst := ran_perform h op
    obtain ⟨named, hrest, hwhole⟩ := ih (h.perform op)
    refine ⟨_, hfirst.append hrest, fun hpermitted hs => hwhole hpermitted.2 (hfirst.whole hs fun number hn => ?_)⟩
    exact hs.waits number (hpermitted.1 number hn)

end InOrder

/-- The life of callbacks, after any operations on a new session. No number is given out twice: at
any later time, and wherever a task is begun, the callbacks have numbers of their own. A callback
that works once runs at most once: what an operation runs itself is in the history, in which the
number of such a callback does not come up again, and what is run in the course of other work is a
region and works again and again. Firing a number that is not in the table does nothing, and one
whose node has left the document is only taken out. A passage that is shown has no callbacks but
those made for it. And if all that is fired by its number waits in the document, every region has
one callback. -/
theorem callback_lifecycle (passages : Passages) (config : Config) (constants : Bindings Value) (heap : Script.Heap)
    (seed : UInt64) (ops : List Operation) :
    let first := start passages config ⟨constants, Macros.builtins.toArray, true⟩ heap seed
    let s := ops.foldl perform first
    let begins (op : Operation) (rest : Nat) (t : Task) (w : World) : Prop := ∃ task v entered place,
      Enters s.renderer op s.world task v entered ∧
        Comes s.setting s.definitions (levels s.setting.config) task v ⟨entered, []⟩ rest t w place
    (∀ more : List Operation, Numbered s.stage (more.foldl perform s).stage) ∧
    (∀ op rest t w, begins op rest t w → Numbered s.stage w.host) ∧
    (history first ops).Pairwise (fun p q => p.2.once = true → q.1 ≠ p.1) ∧
    (∀ op c event v entered, Enters s.renderer op s.world (.action c event) v entered →
      ∃ number, (number, c) ∈ op.firings s.renderer s.world) ∧
    (∀ op rest t w link c event v, begins op rest t w →
      Calls s.definitions (Render.renderer s.setting s.definitions rest) t w link (.action c event) v → c.once = false) ∧
    (∀ r number event w, w.host.callbacks.lookup number = none → Render.fire r number event w = .ok () w) ∧
    (∀ r number event w c, w.host.callbacks.lookup number = some c → w.host.document.isAttached c.anchor = false →
      Render.fire r number event w = .ok () { w with host := w.host.without number }) ∧
    (∀ passage, ∀ p ∈ (s.perform (.goTo passage)).stage.callbacks, s.stage.created < p.1) ∧
    (Permitted first ops → ∀ name ids, s.stage.redoables.get? name = some ids → ∀ number ∈ ids,
      ids.count number = 1 ∧ (s.stage.callbacks.map (·.1)).count number = 1) := by
  intro first s begins
  have hstart : Whole first.stage := {
    nodes_pos := Nat.one_pos
    linked := .empty
    anchors := nofun
    numbers_le := nofun
    numbers_nodup := .nil
    listed_le := nofun
    listed_nodup := fun _ => .nil
    listed_inj := nofun
    regions := nofun
    waits := by
      rintro number (⟨node, event, hmem⟩ | ⟨timer, htimer, -⟩)
      · exact absurd hmem (Document.listeners_empty node ▸ not_mem_nil)
      · nomatch htimer
    none_dangles := fun _ ⟨⟨_, hmem⟩, _⟩ => nomatch hmem }
  have hfirst : InOrder first := ⟨rfl, hstart.toSound⟩
  have hs : InOrder s := hfirst.foldl_perform ops
  have hlasts : Aspect.tables.Lasts s.stage 0 s.world := ⟨hs.sound, .refl _⟩
  have hbegins : ∀ {op rest t w}, begins op rest t w → Since s.stage w := fun ⟨_, _, _, _, henters, hcomes⟩ =>
    Prepared.since (hcomes.prepared (mem_builtins hs.definitions_eq)
      (henters.prepared (accountable hs.definitions_eq) nofun hlasts))
  obtain ⟨_, hran, hwhole⟩ := ran_history hfirst ops
  refine ⟨fun more => ?_, fun op rest t w hw => ?_, hran.once, fun op c event v entered henters => ?_,
    fun op rest t w link c event v hw hcall => ?_, fun _ _ _ _ hc => fire_absent hc, fun _ _ _ _ _ hc hanchor => fire_detached hc hanchor,
    fun passage p hp => ?_, fun hpermitted name ids hids number hmem => ?_⟩
  · obtain ⟨_, hafter, -⟩ := ran_history hs more
    exact .of_sound hafter.later hafter.sound
  · exact .of_sound (hbegins hw).later (hbegins hw).sound
  · cases henters with
    | fired hfires hc hanchor => exact ⟨_, mem_firings_of_fires hfires (Option.filter_eq_some_iff.2 ⟨hc, hanchor⟩)⟩
  · exact once_eq_false (accountable_renderer (mem_builtins hs.definitions_eq) rest) hcall (hbegins hw).sound
  · rw [stage, world_perform] at hp
    exact created_lt_of_goTo (accountable hs.definitions_eq) hs.sound p hp
  · exact (hwhole hpermitted hstart).count_eq_one hids hmem

/-- A region that is rendered again has a new link in it. The link works once, and the region is
still there afterwards. -/
theorem link_in_region_works_once : let text := "@redoable(\"tide\")\x7b@link(\"push\")\x7bgone\x7d\x7d"
    let constants := Bindings.ofList [("redoable", Value.macroDef 19 "redoable"), ("link", .macroDef 21 "link")]
    let passages := Passages.ofList [⟨"main", text, [], 1⟩]
    let first := start passages {} ⟨constants, Macros.builtins.toArray, true⟩ {} 1
    let ops := [Operation.goTo "main", .trigger "tide", .fire 3 .click, .fire 3 .click]
    let s := ops.foldl perform first
    Permitted first ops ∧ (history first ops).map (fun p => (p.1, p.2.once)) = [(1, false), (3, true)] ∧
      s.stage.redoables.get? "tide" = some [1] ∧ (s.stage.callbacks.map (·.1)).count 1 = 1 := by
  intro text constants passages first ops s
  have hpermitted : Permitted first ops :=
    ⟨nofun, nofun, forall_mem_singleton.2 (.inl ⟨4, "click", by decide +kernel⟩),
      forall_mem_singleton.2 (.inl ⟨4, "click", by decide +kernel⟩), trivial⟩
  have hlisted : s.stage.redoables.get? "tide" = some [1] := by decide +kernel
  obtain ⟨-, -, -, -, -, -, -, -, hregions⟩ := callback_lifecycle passages {} constants {} 1 ops
  exact ⟨hpermitted, by decide +kernel, hlisted, (hregions hpermitted "tide" [1] hlisted 1 (.head _)).2⟩

end StoryMarkup.Session
