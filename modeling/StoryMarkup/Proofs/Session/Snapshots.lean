import StoryMarkup.Proofs.Script.Interchange
import StoryMarkup.Json.Printer
import StoryMarkup.Session

/-! Snapshots of a story. A story of nothing but data comes back in an empty one. -/
namespace StoryMarkup

namespace Script.Heap

variable {ref : Nat}

lemma Extends.lt_objects {h h' : Heap} (he : h.Extends h') (hlt : ref < h.objects.size) : ref < h'.objects.size := by
  have hcell := he.objects (Array.getElem?_eq_getElem hlt)
  exact (Array.getElem?_eq_some_iff.1 hcell).1

lemma newObject_modifyObject (h : Heap) (fields : Bindings Value) (hlt : ref < h.objects.size)
    (f : Bindings Value → Bindings Value) :
    (h.modifyObject ref f).newObject fields = ((h.newObject fields).1, (h.newObject fields).2.modifyObject ref f) := by
  have hpush : (h.objects.modify ref f).push fields = (h.objects.push fields).modify ref f := by
    ext i hi hi'
    · simp
    · simp only [Array.getElem_push, Array.getElem_modify, Array.size_modify]
      grind
  simp [newObject, modifyObject, hpush]

mutual

theorem ofJson_modifyObject (h : Heap) (hlt : ref < h.objects.size) (f : Bindings Value → Bindings Value) (j : Json) :
    (h.modifyObject ref f).ofJson j = ((h.ofJson j).1, (h.ofJson j).2.modifyObject ref f) := by
  cases j with
  | array items =>
    simp only [ofJson, ofJsonItems_modifyObject _ hlt f items]
    rfl
  | object fields =>
    have hlt' := (Extends.ofJsonFields h fields).lt_objects hlt
    simp [ofJson, ofJsonFields_modifyObject _ hlt f fields, newObject_modifyObject _ _ hlt' f]
  | _ => rfl

theorem ofJsonItems_modifyObject (h : Heap) (hlt : ref < h.objects.size)
    (f : Bindings Value → Bindings Value) (js : List Json) :
    (h.modifyObject ref f).ofJsonItems js = ((h.ofJsonItems js).1, (h.ofJsonItems js).2.modifyObject ref f) := by
  cases js with
  | nil => rfl
  | cons j rest =>
    have hlt' := (Extends.ofJson h j).lt_objects hlt
    simp [ofJsonItems, ofJson_modifyObject _ hlt f j, ofJsonItems_modifyObject _ hlt' f rest]

theorem ofJsonFields_modifyObject (h : Heap) (hlt : ref < h.objects.size)
    (f : Bindings Value → Bindings Value) (js : List (String × Json)) :
    (h.modifyObject ref f).ofJsonFields js = ((h.ofJsonFields js).1, (h.ofJsonFields js).2.modifyObject ref f) := by
  cases js with
  | nil => rfl
  | cons e rest =>
    obtain ⟨key, j⟩ := e
    have hlt' := (Extends.ofJson h j).lt_objects hlt
    simp [ofJsonFields, ofJson_modifyObject _ hlt f j, ofJsonFields_modifyObject _ hlt' f rest]

end

end Script.Heap

open Script

namespace Session

lemma depicts_mergeStory (s : Session) {fields : List (String × Json)} (hj : Written (.object fields))
    (hempty : s.world.heap.objects[s.setting.story]? = some .empty) :
    (s.mergeStory (.object fields)).world.heap.Depicts (.object fields) (.object s.setting.story) := by
  obtain ⟨setting, defs, ⟨h, random, frames, warnings, host⟩⟩ := s
  change h.objects[setting.story]? = some .empty at hempty
  obtain ⟨hlt, hcell⟩ := Array.getElem?_eq_some_iff.1 hempty
  -- The story could as well have been written before the values were read.
  let before := h.modifyObject setting.story fun story => story.insertAll (h.ofJsonFields fields).1
  have hread : before.ofJsonFields fields = ((h.ofJsonFields fields).1,
      (h.ofJsonFields fields).2.modifyObject setting.story fun story => story.insertAll (h.ofJsonFields fields).1) :=
    h.ofJsonFields_modifyObject hlt _ fields
  obtain ⟨hheap, hkeys, hitems⟩ := before.ofJsonFields_eq fields
  rw [hread] at hheap hkeys hitems
  cases hj with
  | object hnames hvalues =>
    have hstory : before.objects[setting.story]? = some (.ofList (h.ofJsonFields fields).1) := by
      simp [before, Heap.modifyObject, Array.getElem?_modify, hempty, Bindings.ofList]
    have hentries : (Bindings.ofList (h.ofJsonFields fields).1).entries = (h.ofJsonFields fields).1 :=
      Bindings.entries_ofList (hkeys ▸ hnames)
    have hdepicts := Heap.depicts_ofJsonItems hvalues (fun j hj => Heap.depicts_ofJson (hvalues j hj)) before
    have hextends := Heap.Extends.ofJsonItems before (fields.map (·.2))
    rw [← hheap] at hdepicts hextends
    refine .object (hextends.objects hstory) (by rw [Bindings.keys, hentries, hkeys]) ?_
    rwa [Bindings.values, hentries, hitems]

/-- Snapshots lose nothing of a value without loops but what has no JSON form. All of the value is
written, what is read for it is written as the same again, and data is read back as it was. So a
story that holds nothing but data is restored in an empty one, and from the text of its snapshot
whenever that text is read as the snapshot again. -/
theorem snapshot_restores_story (s t : Session) :
    (∀ (h' : Heap) (v : Value), s.world.heap.Acyclic v →
      let read := h'.ofJson (s.world.heap.toJson v)
      (∀ depth, s.world.heap.depth ≤ depth → s.world.heap.toJsonWithin depth v = s.world.heap.toJson v) ∧
        read.2.toJson read.1 = s.world.heap.toJson v ∧
        ((∀ w, s.world.heap.Reaches v w → s.world.heap.IsData w) →
          s.world.heap.Alike read.2 v read.1)) ∧
    (t.world.heap.objects[t.setting.story]? = some .empty →
      s.world.heap.Acyclic (.object s.setting.story) →
      let restored := t.mergeStory s.snapshot
      restored.snapshot = s.snapshot ∧
        ((∀ w, s.world.heap.Reaches (.object s.setting.story) w → s.world.heap.IsData w) →
          s.world.heap.Alike restored.world.heap (.object s.setting.story) (.object t.setting.story)) ∧
        (Json.parse s.snapshot.compact = .ok s.snapshot →
          t.loadStory s.snapshot.compact = .ok restored)) := by
  constructor
  · intro h' v hv read
    exact ⟨fun _ => hv.toJsonWithin_eq, s.world.heap.toJson_ofJson_toJson h' v,
      Heap.alike_ofJson_toJson h' hv⟩
  · intro hempty hstory restored
    have hwritten : Written s.snapshot := s.world.heap.written_toJsonWithin _ _
    obtain ⟨fields, hfields⟩ : ∃ fields, s.snapshot = .object fields := ⟨_, rfl⟩
    have hloaded := t.depicts_mergeStory (hfields ▸ hwritten) hempty
    rw [← hfields] at hloaded
    refine ⟨hloaded.toJson_eq hwritten,
      fun hdata => (Heap.depicts_toJson hstory hdata).alike hwritten hloaded, ?_⟩
    intro hparse
    rw [loadStory, hparse]
    rfl

/-- A story with a list is restored. -/
theorem story_with_list_restored :
    let s : Session := ⟨{ passages := .empty, config := {}, macros := #[], story := 0, constants := 1 }, #[],
      { heap := { arrays := #[#[.text "sword", .number 0.5]],
                  objects := #[.ofList [("bag", .array 0), ("lit", .bool true)], .empty] }, host := {} }⟩
    let t : Session := { s with world := { s.world with heap := { objects := #[.empty, .empty] } } }
    s.world.heap.Acyclic (.object 0) ∧ (∀ w, s.world.heap.Reaches (.object 0) w → s.world.heap.IsData w) ∧
      s.world.heap.Alike (t.mergeStory s.snapshot).world.heap (.object 0) (.object 0) := by
  intro s t
  have hitems : ∀ v, ∀ w ∈ s.world.heap.items v, s.world.heap.IsData w := by
    have hhalf : Decimal.decode 0.5 = .finite ⟨false, 2 ^ 52, -53⟩ := by decide +kernel
    intro v
    cases v with
    | array ref =>
      cases ref with
      | zero => exact List.forall_mem_cons.2 ⟨trivial, List.forall_mem_singleton.2 ⟨⟨_, hhalf⟩, by decide +kernel⟩⟩
      | succ => exact fun _ hw => absurd hw List.not_mem_nil
    | object ref =>
      rcases ref with _ | _ | ref
      · exact List.forall_mem_cons.2 ⟨(by decide : 0 < 1), List.forall_mem_singleton.2 trivial⟩
      · exact fun _ hw => absurd hw List.not_mem_nil
      · exact fun _ hw => absurd hw List.not_mem_nil
    | _ => nofun
  have hdata : ∀ w, s.world.heap.Reaches (.object 0) w → s.world.heap.IsData w := by
    intro w hw
    cases hw with
    | refl => exact (by decide : 0 < 2)
    | tail _ hstep => exact hitems _ w hstep
  have hacyclic : s.world.heap.Acyclic (.object 0) :=
    (Heap.noLoop_of_rank (fun v => if v.strictEq (.object 0) then 2 else if v.strictEq
      (.array 0) then 1 else 0) (by decide +kernel) (by decide +kernel)).acyclic _
  exact ⟨hacyclic, hdata, ((snapshot_restores_story s t).2 rfl hacyclic).2.1 hdata⟩

/-- The text of a number need not be read as the number, so a story may come back changed. -/
theorem eleventh_comes_back_changed :
    let s : Session := ⟨{ passages := .empty, config := {}, macros := #[], story := 0, constants := 1 }, #[],
      { heap := { objects := #[.ofList [("x", .number (1 / 11))], .empty] }, host := {} }⟩
    let t : Session := { s with world := { s.world with heap := { objects := #[.empty, .empty] } } }
    s.snapshot.compact = "\x7b\"x\":0.09090909090909091\x7d" ∧
      (t.loadStory s.snapshot.compact).toOption.map (·.snapshot.compact) =
        some "\x7b\"x\":0.09090909090909093\x7d" := by
  decide +kernel

end Session
end StoryMarkup
