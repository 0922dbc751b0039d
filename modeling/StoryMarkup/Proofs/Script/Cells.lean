import StoryMarkup.Proofs.Descent
import StoryMarkup.Script.Interchange

/-! Cells and what they hold. Conversions end below values from which no cell is come back to. -/
namespace StoryMarkup.Script

open Relation (TransGen ReflTransGen)
variable {v c : Value} {w : Value} {depth ref : Nat} {h'' : Heap}

def Function.kept : Function → List Value
  | .closure _ _ captures => captures.values
  | _ => []

namespace Heap

variable {h h' : Heap}

def items (h : Heap) : Value → List Value
  | .array ref => (h.array ref).toList
  | .object ref => (h.object ref).values
  | _ => []

def Holds (h : Heap) (v w : Value) : Prop := w ∈ h.items v

def Reaches (h : Heap) : Value → Value → Prop := ReflTransGen h.Holds

def Acyclic (h : Heap) (v : Value) : Prop := LoopFree h.Holds v

def Knows (h : Heap) : Value → Prop
  | .array ref => ref < h.arrays.size
  | .object ref => ref < h.objects.size
  | _ => True

lemma knows_of_holds (hvw : h.Holds v w) : h.Knows v := by
  cases v with
  | array ref =>
    by_contra hge
    simp_all [Holds, items, array, Knows]
  | object ref =>
    by_contra hge
    simp_all [Holds, items, object, Bindings.values, Bindings.empty, Knows]
  | _ => trivial

open Classical in
lemma exists_cells (h : Heap) : ∃ cells : Finset Value, cells.card < h.depth ∧ ∀ v w, h.Holds v w → v ∈ cells := by
  refine ⟨(Finset.range h.arrays.size).image .array ∪ (Finset.range h.objects.size).image .object, ?_, ?_⟩
  · have hunion := Finset.card_union_le ((Finset.range h.arrays.size).image Value.array)
      ((Finset.range h.objects.size).image Value.object)
    have harrays := Finset.card_image_le (s := Finset.range h.arrays.size) (f := Value.array)
    have hobjects := Finset.card_image_le (s := Finset.range h.objects.size) (f := Value.object)
    rw [Finset.card_range] at harrays hobjects
    unfold depth
    omega
  · intro v w hvw
    cases v with
    | array ref =>
      have hlt : ref < h.arrays.size := knows_of_holds hvw
      simp [hlt]
    | object ref =>
      have hlt : ref < h.objects.size := knows_of_holds hvw
      simp [hlt]
    | _ => simp [Holds, items] at hvw

lemma Acyclic.acc (hv : h.Acyclic v) : Acc (fun w v => h.Holds v w) v := by
  obtain ⟨cells, -, hcells⟩ := h.exists_cells
  exact LoopFree.acc hcells hv

lemma Acyclic.of_reaches (hv : h.Acyclic v) (hw : h.Reaches v w) : h.Acyclic w :=
  LoopFree.of_reaches hv hw

/-- A conversion that looks at nothing but a value and what it makes of the items comes to the same
answer whenever it may go deep enough. -/
theorem Acyclic.walk_eq {β : Type} {walk : Nat → Value → β} (hv : h.Acyclic v)
    (hlocal : ∀ k m w, h.Reaches v w → (∀ u ∈ h.items w, walk k u = walk m u) → walk (k + 1) w =
    walk (m + 1) w) {k m : Nat} (hk : h.depth ≤ k) (hm : h.depth ≤ m) : walk k v = walk m v := by
  obtain ⟨cells, hcard, hcells⟩ := h.exists_cells
  exact LoopFree.walk_eq hcells hv hlocal (Nat.lt_of_lt_of_le hcard hk) (Nat.lt_of_lt_of_le hcard hm)

lemma Acyclic.toJsonWithin_eq (hv : h.Acyclic v) (hdepth : h.depth ≤ depth) :
    h.toJsonWithin depth v = h.toJson v := by
  refine hv.walk_eq (fun k m v _ hitems => ?_) hdepth le_rfl
  cases v with
  | array ref =>
    simp only [toJsonWithin]
    congr 1
    exact List.map_congr_left hitems
  | object ref =>
    simp only [toJsonWithin]
    congr 1
    refine List.map_congr_left fun e he => ?_
    rw [hitems e.2 (List.mem_map_of_mem (List.mem_of_mem_filter he))]
  | _ => simp only [toJsonWithin]

lemma Acyclic.displayWithin_eq (hv : h.Acyclic v) (hdepth : h.depth ≤ depth) :
    h.displayWithin depth v = h.display v := by
  refine hv.walk_eq (fun k m v _ hitems => ?_) hdepth le_rfl
  cases v with
  | array ref =>
    simp only [displayWithin]
    congr 1
    refine List.map_congr_left fun w hw => ?_
    rw [hitems w hw]
  | _ => simp only [displayWithin]

structure Wider (h h' : Heap) : Prop where
  arrays : h.arrays.size ≤ h'.arrays.size
  objects : h.objects.size ≤ h'.objects.size

lemma Wider.refl (h : Heap) : h.Wider h := ⟨le_rfl, le_rfl⟩

lemma Wider.trans (a : h.Wider h') (b : h'.Wider h'') : h.Wider h'' :=
  ⟨Nat.le_trans a.arrays b.arrays, Nat.le_trans a.objects b.objects⟩

lemma Knows.mono (hv : h.Knows v) (hwider : h.Wider h') : h'.Knows v := by
  cases v with
  | array ref => exact Nat.lt_of_lt_of_le hv hwider.arrays
  | object ref => exact Nat.lt_of_lt_of_le hv hwider.objects
  | _ => trivial

structure Closed (h : Heap) : Prop where
  items : ∀ {v w}, h.Holds v w → h.Knows w
  kept : ∀ f ∈ h.functions, ∀ v ∈ f.kept, h.Knows v

def NoLoop (h : Heap) : Prop := ∀ v, ¬ TransGen h.Holds v v

lemma NoLoop.acyclic (hloop : h.NoLoop) (v : Value) : h.Acyclic v := fun w _ => hloop w

lemma noLoop_of_rank (rank : Value → Nat)
    (harrays : ∀ ref < h.arrays.size, ∀ w ∈ (h.array ref).toList, rank w < rank (.array ref))
    (hobjects : ∀ ref < h.objects.size, ∀ w ∈ (h.object ref).values, rank w < rank (.object ref)) : h.NoLoop := by
  have hlower : ∀ v w, h.Holds v w → rank w < rank v := by
    intro v w hvw
    have hv := knows_of_holds hvw
    cases v with
    | array ref => exact harrays ref hv w hvw
    | object ref => exact hobjects ref hv w hvw
    | _ => cases hvw
  intro v hv
  have hlt : ∀ w, TransGen h.Holds v w → rank w < rank v := by
    intro w hw
    induction hw with
    | single hvw => exact hlower _ _ hvw
    | tail _ hstep ih => exact (hlower _ _ hstep).trans ih
  exact Nat.lt_irrefl _ (hlt v hv)

lemma Closed.knows_of_reaches (hclosed : h.Closed) (hv : h.Knows v) (hvw : h.Reaches v w) : h.Knows w := by
  induction hvw with
  | refl => exact hv
  | tail _ hstep => exact hclosed.items hstep

/-- The second heap has new cells beside those of the first, and they hold what was there before
them. -/
structure Grown (h h' : Heap) : Prop where
  wider : h.Wider h'
  items_eq : ∀ {v}, h.Knows v → h'.items v = h.items v
  closed : h.Closed → h'.Closed
  noLoop : h.Closed → h.NoLoop → h'.NoLoop

lemma Grown.refl (h : Heap) : h.Grown h := ⟨.refl h, fun _ => rfl, id, fun _ => id⟩

lemma Grown.of_fresh (hwider : h.Wider h') (hc : ¬ h.Knows c) (hothers : ∀ v, v ≠ c → h'.items v = h.items v)
    (hitems : ∀ w ∈ h'.items c, h.Knows w) (hkept : ∀ f ∈ h'.functions, f ∈ h.functions ∨
    ∀ v ∈ f.kept, h.Knows v) : h.Grown h' where
  wider := hwider
  items_eq := fun hv => hothers _ fun he => hc (he ▸ hv)
  closed := fun hclosed => by
    refine ⟨fun {v w} hvw => Knows.mono ?_ hwider, fun f hf v hv => Knows.mono ?_ hwider⟩
    · by_cases hvc : v = c
      · exact hitems w (hvc ▸ hvw)
      · exact hclosed.items (v := v) (by rwa [Holds, hothers v hvc] at hvw)
    · obtain hf | hf := hkept f hf
      · exact hclosed.kept f hf v hv
      · exact hf v hv
  noLoop := fun hclosed hloop => by
    refine (noLoop_iff_of_agree (c := c) (fun a b hne => by rw [Holds, Holds, hothers a hne])
      hloop).2 fun w hw hwc => ?_
    exact hc (hclosed.knows_of_reaches (hitems w hw) hwc)

lemma grown_newArray {items : Array Value} (hitems : ∀ v ∈ items, h.Knows v) : h.Grown (h.newArray items).2 := by
  refine .of_fresh (c := .array h.arrays.size) ⟨by simp [newArray], le_rfl⟩ (Nat.lt_irrefl _)
    (fun v hv => ?_) (fun w hw => hitems w ?_) fun f hf => .inl hf
  · cases v with
    | array ref =>
      have hne : ref ≠ h.arrays.size := fun he => hv (he ▸ rfl)
      simp [Heap.items, array, newArray, Array.getElem?_push, hne]
    | _ => rfl
  · simpa [Heap.items, array, newArray] using hw

lemma grown_newObject {fields : Bindings Value} (hfields : ∀ v ∈ fields.values, h.Knows v) :
    h.Grown (h.newObject fields).2 := by
  refine .of_fresh (c := .object h.objects.size) ⟨le_rfl, by simp [newObject]⟩ (Nat.lt_irrefl _)
    (fun v hv => ?_) (fun w hw => hfields w ?_) fun f hf => .inl hf
  · cases v with
    | object ref =>
      have hne : ref ≠ h.objects.size := fun he => hv (he ▸ rfl)
      simp [Heap.items, object, newObject, Array.getElem?_push, hne]
    | _ => rfl
  · simpa [Heap.items, object, newObject] using hw

lemma grown_newFunction {f : Function} (hf : ∀ v ∈ f.kept, h.Knows v) : h.Grown (h.newFunction f).2 := by
  refine .of_fresh (c := .array h.arrays.size) ⟨le_rfl, le_rfl⟩ (Nat.lt_irrefl _) (fun _ _ => rfl)
    (fun w hw => ?_) fun g hg => ?_
  · exact absurd (knows_of_holds hw) (Nat.lt_irrefl _)
  · obtain hg | rfl := Array.mem_push.1 hg
    · exact .inl hg
    · exact .inr hf

lemma grown_newPattern (p : Pattern) : h.Grown (h.newPattern p).2 :=
  .of_fresh (c := .array h.arrays.size) ⟨le_rfl, le_rfl⟩ (Nat.lt_irrefl _) (fun _ _ => rfl)
    (fun _ hw => absurd (knows_of_holds hw) (Nat.lt_irrefl _)) fun _ hf => .inl hf

/-! Changes of one cell. -/

structure Changed (h : Heap) (c : Value) (h' : Heap) : Prop where
  wider : h.Wider h'
  narrower : h'.Wider h
  functions : h'.functions = h.functions
  others : ∀ v, v ≠ c → h'.items v = h.items v
  known : ∀ w ∈ h'.items c, h.Knows w

lemma Changed.closed (hchanged : h.Changed c h') (hclosed : h.Closed) : h'.Closed := by
  refine ⟨fun {v w} hvw => Knows.mono ?_ hchanged.wider, fun f hf v hv => Knows.mono ?_ hchanged.wider⟩
  · by_cases hvc : v = c
    · exact hchanged.known w (hvc ▸ hvw)
    · exact hclosed.items (v := v) (by rwa [Holds, hchanged.others v hvc] at hvw)
  · exact hclosed.kept f (hchanged.functions ▸ hf) v hv

/-- In the second heap a cell holds something from which that cell could be come to in the first. -/
def Closes (h h' : Heap) : Prop := ∃ v w, h'.Holds v w ∧ h.Reaches w v

/-- A change of one cell makes a loop just if it puts into the cell something from which it can be
come to. -/
theorem Changed.noLoop_iff {h₁ : Heap} (hchanged : h.Changed c h₁) (hgrown : h₁.Grown h')
    (hclosed : h.Closed) (hloop : h.NoLoop) : h'.NoLoop ↔ ¬ h.Closes h' := by
  have hiff : h₁.NoLoop ↔ ∀ w, h₁.Holds c w → ¬ h.Reaches w c :=
    noLoop_iff_of_agree (fun a b hne => by rw [Holds, Holds, hchanged.others a hne]) hloop
  have hsame : ∀ {v}, h.Knows v → h'.items v = h₁.items v := fun hv => hgrown.items_eq (hv.mono hchanged.wider)
  constructor
  · rintro hno ⟨v, w, hvw, hwv⟩
    obtain rfl | ⟨u, -, huv⟩ := ReflTransGen.cases_tail hwv
    · exact hno _ (.single hvw)
    · rw [Holds, hsame (hclosed.items huv)] at hvw
      by_cases hvc : v = c
      · subst hvc
        have hsub : ∀ a b, h₁.Holds a b → h'.Holds a b := fun a b hab => by
          rwa [Holds, hgrown.items_eq (knows_of_holds hab)]
        exact hiff.1 (fun a ha => hno a (TransGen.mono hsub _ _ ha)) w hvw hwv
      · rw [hchanged.others v hvc] at hvw
        exact hloop v (.head' hvw hwv)
  · refine fun hcloses => hgrown.noLoop (hchanged.closed hclosed) (hiff.2 fun w hcw hwc => hcloses ⟨c, w, ?_, hwc⟩)
    rwa [Holds, hgrown.items_eq (knows_of_holds hcw)]

lemma changed_modifyArray {f : Array Value → Array Value} (hf : ∀ v ∈ f (h.array ref), h.Knows v) :
    h.Changed (.array ref) (h.modifyArray ref f) := by
  refine ⟨⟨by simp [modifyArray], le_rfl⟩, ⟨by simp [modifyArray], le_rfl⟩, rfl, fun v hv => ?_, fun w hw => ?_⟩
  · cases v with
    | array other =>
      have hne : ref ≠ other := fun he => hv (he ▸ rfl)
      simp [items, array, modifyArray, Array.getElem?_modify, hne]
    | _ => rfl
  · have hlt : ref < h.arrays.size := by simpa [Knows, modifyArray] using knows_of_holds hw
    refine hf w ?_
    simpa [items, array, modifyArray, hlt, Array.getElem_modify_self] using hw

lemma changed_modifyObject {f : Bindings Value → Bindings Value} (hf : ∀ v ∈ (f (h.object ref)).values, h.Knows v) :
    h.Changed (.object ref) (h.modifyObject ref f) := by
  refine ⟨⟨le_rfl, by simp [modifyObject]⟩, ⟨le_rfl, by simp [modifyObject]⟩, rfl, fun v hv => ?_, fun w hw => ?_⟩
  · cases v with
    | object other =>
      have hne : ref ≠ other := fun he => hv (he ▸ rfl)
      simp [items, object, modifyObject, Array.getElem?_modify, hne]
    | _ => rfl
  · have hlt : ref < h.objects.size := by simpa [Knows, modifyObject] using knows_of_holds hw
    refine hf w ?_
    simpa [items, object, modifyObject, hlt, Array.getElem_modify_self] using hw

lemma Changed.trans (a : h.Changed c h') (b : h'.Changed c h'') : h.Changed c h'' :=
  ⟨a.wider.trans b.wider, b.narrower.trans a.narrower, b.functions.trans a.functions,
    fun v hv => (b.others v hv).trans (a.others v hv), fun w hw => (b.known w hw).mono a.narrower⟩

end Heap
end StoryMarkup.Script
