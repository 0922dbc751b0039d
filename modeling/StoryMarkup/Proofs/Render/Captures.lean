import StoryMarkup.Proofs.Render.Readiness

/-! Captured bindings are taken out of a scope again exactly, whatever was written between. -/
namespace StoryMarkup

open Script (Value)

namespace Bindings

variable {α : Type}

lemma get?_erase (b : Bindings α) (name other : String) :
    (b.erase name).get? other = if other = name then none else b.get? other := by
  rw [erase, get?_filter]
  by_cases h : other = name <;> cases b.get? other <;> simp [h]

lemma insert_of_get? {b : Bindings α} {name : String} {v : α} (h : b.get? name = some v) : b.insert name v = b := by
  refine (insertAll_eq_self_iff b [(name, v)]).2 fun other hother => ?_
  obtain rfl : other = name := by simpa using hother
  simp [h]

lemma erase_insert {b : Bindings α} {name : String} (h : b.get? name =
    none) (v : α) : (b.insert name v).erase name = b := by
  have hmem : name ∉ b.entries.map (·.1) := fun hmem => by
    have hcontains := (contains_iff b name).2 hmem
    simp [contains, h] at hcontains
  have hkept : ∀ e ∈ b.entries, e.1 != name := fun e he => bne_iff_ne.2 fun heq => hmem (heq ▸ List.mem_map_of_mem he)
  refine ext ?_
  change (put name v b.entries).filter _ = b.entries
  rw [put_of_not_mem v hmem, List.filter_append, List.filter_eq_self.2 hkept]
  simp

end Bindings

variable {w : World} (c : Captures) (scope : Bindings Value) (name : String) (v : Value)

namespace Render
namespace Captures

lemma installFrom_eq (displaced : List (String × Option Value)) (scope : Bindings Value) :
    installFrom displaced scope c = ((install c scope).1 ++ displaced, (install c scope).2) := by
  induction c generalizing displaced scope with
  | nil => rfl
  | cons e rest ih => rw [install, installFrom, installFrom, ih, ih [_]]; simp

lemma install_cons (rest : Captures) (scope : Bindings Value) :
    install ((name, v) :: rest) scope =
      ((install rest (scope.insert name v)).1 ++ [(name, scope.get? name)], (install rest (scope.insert name v)).2) :=
  installFrom_eq rest _ _

lemma restore_append (newer older : List (String × Option Value)) :
    restore scope (newer ++ older) = restore (restore scope newer) older := by
  induction newer generalizing scope with
  | nil => rfl
  | cons e rest ih =>
    obtain ⟨name, _ | v⟩ := e
    · exact ih _
    · exact ih _

lemma get?_restore_one (key : String) (old : Option Value) :
    (restore scope [(name, old)]).get? key = if key = name then old else scope.get? key := by
  cases old with
  | none => exact Bindings.get?_erase scope name key
  | some v => exact Bindings.get?_insert scope name key v

lemma get?_restore_install (later : Bindings Value) (key : String) :
    (restore later (install c scope).1).get? key = if key ∈ c.map (·.1) then scope.get? key else later.get? key := by
  induction c generalizing scope with
  | nil => simp [install, installFrom, restore]
  | cons e rest ih =>
    obtain ⟨name, v⟩ := e
    rw [install_cons, restore_append, get?_restore_one, ih, Bindings.get?_insert, List.map_cons]
    by_cases hkey : key = name
    · simp [hkey]
    · have hmem : key ∈ name :: rest.map (·.1) ↔ key ∈ rest.map (·.1) := by simp [hkey]
      simp only [hkey, if_false, hmem]

lemma restore_insert : restore (scope.insert name v) [(name, scope.get? name)] = scope := by
  cases h : scope.get? name with
  | none => exact Bindings.erase_insert h v
  | some old => exact (Bindings.insert_insert ..).trans (Bindings.insert_of_get? h)

lemma restore_install : restore (install c scope).2 (install c scope).1 = scope := by
  induction c generalizing scope with
  | nil => rfl
  | cons e rest ih => rw [install_cons, restore_append, ih, restore_insert]

end Captures

lemma get?_insertAll_congr {b b' : Bindings Value} {key : String} (h : b.get? key = b'.get? key)
    (es : List (String × Value)) : (b.insertAll es).get? key = (b'.insertAll es).get? key := by
  induction es generalizing b b' with
  | nil => exact h
  | cons e rest ih => exact ih (by rw [Bindings.get?_insert, Bindings.get?_insert, h])

/-- Firing a callback comes to an end, with the names that it has captured as it found them in its
scope. -/
def Restores (r : Renderer) (number : Nat) (event : Event) (w : World) : Prop :=
  ∃ v, fire r number event w = .ok () v ∧ ∀ c, w.host.callbacks.lookup number = some c →
    ∀ name ∈ c.captures.map (·.1), (v.heap.object c.temp).get? name = (w.heap.object c.temp).get? name

/-- In the course of rendering regions again, a callback has its turn to be fired. -/
def Refires (r : Renderer) (ctx : Context) (w : World) (number : Nat) (event : Event) (w' : World) : Prop :=
  ∃ v w₁, Turn (fun v => do trigger r (← display v)) (fun _ => true) ctx.values w v w₁ ∧
    event = .trigger (w₁.heap.display v) ∧
    Turn (fun n => fire r n event) (fun _ => true) ((w₁.host.redoables.get? (w₁.heap.display v)).getD []) w₁ number w'

namespace Accountable

variable {setting : Setting} {defs : Array Definition} {levels : Nat} {r : Renderer}
  (h : Accountable setting defs .scopes levels r)
include h

lemma restores (number : Nat) (event : Event) (hw : Scoped w) : Restores r number event w := by
  obtain ⟨⟨⟩, v, hv⟩ := Completes.fire r number event w
  refine ⟨v, hv, fun c hc name hname => ?_⟩
  cases hanchor : w.host.document.isAttached c.anchor with
  | false =>
    rw [fire_detached hc hanchor] at hv
    cases hv
    rfl
  | true =>
    have hready : Aspect.scopes.Lasts w.host c.temp w := ⟨hw _ (mem_of_lookup hc), hw⟩
    have hinstalled := hready.after (c.after_install (K := fun _ => True) number w)
    obtain ⟨⟨⟩, u, hu⟩ := Completes.inPass (Completes.runAction r c event) (c.install number w)
    have hafter : Ready c.temp u := Keeps.lasts (fun _ => ((h.runAction c event).keeps _).inPass) hu hinstalled
    rw [fire_eq r event hc hanchor] at hv
    simp only [bind, EStateM.bind, hu] at hv
    cases hv
    change ((u.heap.modifyObject c.temp _).object c.temp).get? name = _
    rw [Script.Heap.object_modifyObject _ _ hafter.temp_lt, Captures.get?_restore_install, if_pos hname]

lemma scoped_of_refires {ctx : Context} {number : Nat} {event : Event} {w' : World}
    (hfires : Refires r ctx w number event w') (hw : Ready ctx.site.temp w) : Scoped w' := by
  obtain ⟨v, w₁, hturn, -, hturn'⟩ := hfires
  have hfirst : Aspect.scopes.Lasts w.host ctx.site.temp w₁ :=
    hturn.lasts (fun v _ => .bind (.drawing (.display v)) fun name _ _ => h.keeps_trigger name _) hw
  have hnext : Ready ctx.site.temp w' := hturn'.lasts (fun n => h.keeps_fire n _) hfirst
  exact hnext.scopes

end Accountable

/-- Installing captured bindings is undone exactly. Whatever is written into the scope between, the
captured names are then bound as before, or not bound, and all others as the writing left them; and
if nothing is written, the scope is the same. So a callback that is fired leaves the names that it
has captured as it found them, and so does every callback that is fired in the course of its work,
in the same scope or not. -/
theorem installation_is_undone :
    (∀ (c : Captures) scope es key, (Captures.restore ((c.install scope).2.insertAll es) (c.install scope).1).get? key =
      if key ∈ c.map (·.1) then scope.get? key else (scope.insertAll es).get? key) ∧
    (∀ (c : Captures) scope, Captures.restore (c.install scope).2 (c.install scope).1 = scope) ∧
    ∀ setting defs levels number event w, (∀ d ∈ defs, d ∈ Macros.builtins) → Scoped w →
      Restores (renderer setting defs levels) number event w ∧
      ∀ c rest ctx u place number' event' w', w.host.callbacks.lookup number = some c →
        Comes setting defs levels (.action c event) (passWorld (c.install number w))
          ⟨c.captures, []⟩ rest (.use Macros.redo ctx) u place →
        Refires (renderer setting defs rest) ctx u number' event' w' →
        Restores (renderer setting defs rest) number' event' w' := by
  refine ⟨fun c scope es key => ?_, Captures.restore_install, ?_⟩
  · rw [Captures.get?_restore_install]
    by_cases hkey : key ∈ c.map (·.1)
    · rw [if_pos hkey, if_pos hkey]
    · rw [if_neg hkey, if_neg hkey]
      have hinstalled := Captures.get?_restore_install c scope (c.install scope).2 key
      rw [Captures.restore_install, if_neg hkey] at hinstalled
      exact get?_insertAll_congr hinstalled.symm es
  · intro setting defs levels number event w hdefinitions hw
    refine ⟨(accountable_renderer hdefinitions levels).restores number event hw, ?_⟩
    intro c rest ctx u place number' event' w' hc hcomes hfires
    have hready : Aspect.scopes.Lasts w.host c.temp w := ⟨hw _ (mem_of_lookup hc), hw⟩
    have hprepared : Ready ctx.site.temp u := hcomes.prepared hdefinitions (prepared_action hready hc)
    have hrest := @accountable_renderer .scopes setting defs hdefinitions rest
    exact hrest.restores number' event' (hrest.scoped_of_refires hfires hprepared)

/-- A link in a loop renders a region of the loop again, both with the item of their round in the
one scope that is there: afterwards the scope has the last item in it, as before. -/
theorem nested_firing_restores_item :
    let text := "@for(_x of [\"a\",\"b\"])\x7b@redoable(\"tide\")\x7b_x\x7d@link(\"go\")\x7b@redo(\"tide\")\x7d\x7d"
    let constants := Bindings.ofList [("for", Value.macroDef 12 "for"), ("redoable", .macroDef 19 "redoable"),
      ("redo", .macroDef 20 "redo"), ("link", .macroDef 21 "link")]
    let passages := Passages.ofList [⟨"main", text, [], 1⟩]
    let s := (Session.start passages {} ⟨constants, Macros.builtins.toArray, true⟩ {} 1).goTo "main"
    (s.stage.callbacks.map fun p => (p.1, p.2.temp, p.2.captures.map fun (name, v) => (name, s.world.heap.display v))) =
        [(4, 2, [("x", "b")]), (3, 2, [("x", "b")]), (2, 2, [("x", "a")]), (1, 2, [("x", "a")])] ∧
      ((s.world.heap.object 2).get? "x").map s.world.heap.display = some "b" ∧
      ∃ v, fire (renderer s.setting Macros.builtins.toArray 3000) 2 .click s.world = .ok () v ∧
        (v.heap.object 2).get? "x" = (s.world.heap.object 2).get? "x" := by
  intro text constants passages s
  have hscoped : Scoped s.world := by
    change ∀ p ∈ s.world.host.callbacks, _
    decide +kernel
  have hlink : (s.stage.callbacks.lookup 2).map (fun c => (c.temp, c.captures.map (·.1))) = some (2, ["x"]) := by
    decide +kernel
  obtain ⟨c, hc, hcaptured⟩ := Option.map_eq_some_iff.1 hlink
  obtain ⟨htemp, hnames⟩ := Prod.mk.inj hcaptured
  obtain ⟨v, hv, hrestores⟩ := (installation_is_undone.2.2 s.setting Macros.builtins.toArray 3000 2
    .click s.world (fun _ hd => List.mem_toArray.1 hd) hscoped).1
  have hitem := hrestores c hc "x" (by rw [hnames]; exact .head _)
  rw [htemp] at hitem
  exact ⟨by decide +kernel, by decide +kernel, v, hv, hitem⟩

end Render
end StoryMarkup
