import Mathlib.Data.List.Forall2
import StoryMarkup.Proofs.Bindings
import StoryMarkup.Proofs.Decimal.Doubles
import StoryMarkup.Proofs.Script.Cells

/-!
Values as JSON and back. What is written for a value is read as a value for which the same is
written.
-/
namespace StoryMarkup.Script

open List

variable {v : Value} {x : Float} {ref : Nat}

/-! Lists that go together item by item. -/

section Lists

variable {α β γ : Type}
variable {xs : List α} {ys : List β}

lemma forall_mem_of_forall₂ {p : β → Prop} (h : Forall₂ (fun _ y => p y) xs ys) : ∀ y ∈ ys, p y := by
  induction h with
  | nil => simp
  | cons hy _ ih => simpa using ⟨hy, ih⟩

lemma forall₂_of_common {R : γ → α → Prop} {S : γ → β → Prop} {T : α → β → Prop} {zs : List γ}
    (hleft : Forall₂ R zs xs) (hright : Forall₂ S zs ys) (h : ∀ z x y, R z x → S z y → T x y) :
    Forall₂ T xs ys := by
  induction hleft generalizing ys with
  | nil =>
    cases hright
    exact .nil
  | cons hx _ ih =>
    cases hright with
    | cons hy hrest => exact .cons (h _ _ _ hx hy) (ih hrest)

lemma exists_map_eq {f : Nat → β → α} (h : Forall₂ (fun x y => ∃ k, ∀ n, k ≤ n → f n y = x) xs ys) :
    ∃ k, ∀ n, k ≤ n → ys.map (f n) = xs := by
  induction h with
  | nil => exact ⟨0, fun _ _ => rfl⟩
  | cons hy _ ih =>
    obtain ⟨k, hk⟩ := hy
    obtain ⟨m, hm⟩ := ih
    refine ⟨max k m, fun n hn => ?_⟩
    rw [map_cons, hk n (by omega), hm n (by omega)]

end Lists

/-! Numbers. -/

lemma jsonNumber_eq_number {b : Decimal.Binary} (hx : Decimal.decode x = .finite b)
    (hzero : x ≠ -0) : ∃ n, jsonNumber x = .number n ∧ n.toFloat = x := by
  by_cases hint : (b.isIntegral && b.whole < 9 * Nat.pow 10 15) = true
  · refine ⟨.int b.toInt, by simp only [jsonNumber, hx, hint, if_true]; rfl, ?_⟩
    simp only [Bool.and_eq_true, decide_eq_true_eq] at hint
    exact Decimal.ofInt_toInt hx hint.1 (Nat.lt_trans hint.2 (by decide)) hzero
  · exact ⟨.float x, by simp [jsonNumber, hx, hint], rfl⟩

lemma jsonNumber_zero {negative : Bool} {e : Int}
    (hx : Decimal.decode x = .finite ⟨negative, 0, e⟩) : jsonNumber x = .int 0 := by
  simp [jsonNumber, hx]

lemma jsonNumber_cases (x : Float) :
    jsonNumber x = .null ∨ ∃ n, jsonNumber x = .number n ∧ jsonNumber n.toFloat = .number n := by
  by_cases hzero : x = -0
  · subst hzero
    have hnegative : Decimal.decode (-0) = .finite ⟨true, 0, Decimal.leastExponent⟩ := by decide
    have hback : Decimal.decode (Decimal.ofInt 0) = .finite ⟨false, 0, Decimal.leastExponent⟩ := by decide
    exact .inr ⟨.int 0, jsonNumber_zero hnegative, jsonNumber_zero hback⟩
  · cases hx : Decimal.decode x with
    | nan | infinite negative => exact .inl (by simp [jsonNumber, hx])
    | finite b =>
      obtain ⟨n, hn, hback⟩ := jsonNumber_eq_number hx hzero
      exact .inr ⟨n, hn, by rw [hback, hn]⟩

/-! What is written. -/

inductive Written : Json → Prop
  | null : Written .null
  | bool (b : Bool) : Written (.bool b)
  | number {n : Json.Number} (hn : jsonNumber n.toFloat = .number n) : Written (.number n)
  | string (s : String) : Written (.string s)
  | array {items : List Json} (hitems : ∀ j ∈ items, Written j) : Written (.array items)
  | object {fields : List (String × Json)} (hnames : (fields.map (·.1)).Nodup)
      (hvalues : ∀ j ∈ fields.map (·.2), Written j) : Written (.object fields)

lemma written_jsonNumber (x : Float) : Written (jsonNumber x) := by
  obtain hnull | ⟨n, hn, hback⟩ := jsonNumber_cases x
  · exact hnull ▸ .null
  · exact hn ▸ .number hback

namespace Heap

variable {h h' : Heap}

lemma written_toJsonWithin (h : Heap) (depth : Nat) (v : Value) : Written (h.toJsonWithin depth v) := by
  induction depth generalizing v with
  | zero => cases v <;> first | exact written_jsonNumber _ | constructor
  | succ depth ih =>
    cases v with
    | number x => exact written_jsonNumber x
    | array ref =>
      refine .array fun j hj => ?_
      obtain ⟨w, -, rfl⟩ := mem_map.1 hj
      exact ih w
    | object ref =>
      refine .object ?_ fun j hj => ?_
      · rw [map_map]
        exact (filter_sublist.map _).nodup (h.object ref).distinct
      · simp only [mem_map] at hj
        obtain ⟨e, ⟨f, -, rfl⟩, rfl⟩ := hj
        exact ih f.2
    | _ => constructor

/-! Reading adds cells. -/

structure Extends (h h' : Heap) : Prop where
  arrays : ∀ {ref : Nat} {items}, h.arrays[ref]? = some items → h'.arrays[ref]? = some items
  objects : ∀ {ref : Nat} {fields}, h.objects[ref]? = some fields → h'.objects[ref]? = some fields

namespace Extends

lemma refl (h : Heap) : h.Extends h := ⟨id, id⟩

lemma trans {h₁ h₂ h₃ : Heap} (a : h₁.Extends h₂) (b : h₂.Extends h₃) : h₁.Extends h₃ :=
  ⟨fun hcell => b.arrays (a.arrays hcell), fun hcell => b.objects (a.objects hcell)⟩

lemma newArray (h : Heap) (items : Array Value) : h.Extends (h.newArray items).2 where
  arrays hcell := by
    have hlt := (Array.getElem?_eq_some_iff.1 hcell).1
    simp [Heap.newArray, Array.getElem?_push, Nat.ne_of_lt hlt, hcell]
  objects := id

lemma newObject (h : Heap) (fields : Bindings Value) : h.Extends (h.newObject fields).2 where
  arrays := id
  objects hcell := by
    have hlt := (Array.getElem?_eq_some_iff.1 hcell).1
    simp [Heap.newObject, Array.getElem?_push, Nat.ne_of_lt hlt, hcell]

mutual

theorem ofJson (h : Heap) (j : Json) : h.Extends (h.ofJson j).2 := by
  cases j with
  | array items =>
    rw [Heap.ofJson]
    exact (ofJsonItems h items).trans (newArray _ _)
  | object fields =>
    rw [Heap.ofJson]
    exact (ofJsonFields h fields).trans (newObject _ _)
  | _ => exact refl h

theorem ofJsonItems (h : Heap) (items : List Json) : h.Extends (h.ofJsonItems items).2 := by
  cases items with
  | nil => exact refl h
  | cons j rest =>
    rw [Heap.ofJsonItems]
    exact (ofJson h j).trans (ofJsonItems _ rest)

theorem ofJsonFields (h : Heap) (fields : List (String × Json)) : h.Extends (h.ofJsonFields fields).2 := by
  cases fields with
  | nil => exact refl h
  | cons e rest =>
    obtain ⟨key, j⟩ := e
    rw [Heap.ofJsonFields]
    exact (ofJson h j).trans (ofJsonFields _ rest)

end

end Extends

/-! What is read. -/

inductive Depicts (h : Heap) : Json → Value → Prop
  | null : Depicts h .null .null
  | bool (b : Bool) : Depicts h (.bool b) (.bool b)
  | number (n : Json.Number) : Depicts h (.number n) (.number n.toFloat)
  | string (s : String) : Depicts h (.string s) (.text s)
  | array {js : List Json} {ref : Nat} {items : Array Value} (hcell : h.arrays[ref]? = some items)
      (hitems : Forall₂ (Depicts h) js items.toList) : Depicts h (.array js) (.array ref)
  | object {js : List (String × Json)} {ref : Nat} {fields : Bindings Value} (hcell : h.objects[ref]? = some fields)
      (hnames : fields.keys = js.map (·.1)) (hvalues : Forall₂ (Depicts h) (js.map (·.2)) fields.values) :
      Depicts h (.object js) (.object ref)

lemma array_of_getElem? {items : Array Value} (hcell : h.arrays[ref]? = some items) : h.array ref = items := by
  rw [Heap.array, Array.getD_eq_getD_getElem?, hcell, Option.getD_some]

lemma object_of_getElem? {fields : Bindings Value} (hcell : h.objects[ref]? = some fields) :
    h.object ref = fields := by
  rw [Heap.object, Array.getD_eq_getD_getElem?, hcell, Option.getD_some]

section Depicts

variable {j : Json} (hj : Written j)
include hj

lemma Depicts.mono (hd : h.Depicts j v) (he : h.Extends h') : h'.Depicts j v := by
  induction hj generalizing v with
  | null => cases hd; exact .null
  | bool b => cases hd; exact .bool b
  | number => cases hd; exact .number _
  | string s => cases hd; exact .string s
  | array _ ih =>
    cases hd with
    | array hcell hitems =>
      exact .array (he.arrays hcell) (((forall₂_and_left _ _).2 ⟨ih, hitems⟩).imp fun _ _ hw => hw.1 hw.2)
  | object _ _ ih =>
    cases hd with
    | object hcell hnames hvalues =>
      exact .object (he.objects hcell) hnames (((forall₂_and_left _ _).2 ⟨ih, hvalues⟩).imp fun _ _ hw => hw.1 hw.2)

omit hj in
lemma Depicts.isUndefined_eq (hd : h.Depicts j v) : v.isUndefined = false := by
  cases hd <;> rfl

lemma Depicts.acc (hd : h.Depicts j v) : Acc (fun w v => h.Holds v w) v := by
  induction hj generalizing v with
  | array _ ih =>
    cases hd with
    | array hcell hitems =>
      have hacc := ((forall₂_and_left _ _).2 ⟨ih, hitems⟩).imp fun _ _ hw => hw.1 hw.2
      refine .intro _ fun w hw => ?_
      rw [Holds, items, array_of_getElem? hcell] at hw
      exact forall_mem_of_forall₂ hacc w hw
  | object _ _ ih =>
    cases hd with
    | object hcell _ hvalues =>
      have hacc := ((forall₂_and_left _ _).2 ⟨ih, hvalues⟩).imp fun _ _ hw => hw.1 hw.2
      refine .intro _ fun w hw => ?_
      rw [Holds, items, object_of_getElem? hcell] at hw
      exact forall_mem_of_forall₂ hacc w hw
  | _ =>
    cases hd
    exact .intro _ fun w hw => absurd hw not_mem_nil

lemma Depicts.exists_toJsonWithin (hd : h.Depicts j v) : ∃ k, ∀ n, k ≤ n → h.toJsonWithin n v = j := by
  induction hj generalizing v with
  | null | bool b => cases hd; exact ⟨0, fun _ _ => by simp [toJsonWithin]⟩
  | number hn => cases hd; exact ⟨0, fun _ _ => by simp [toJsonWithin, hn]⟩
  | string s => cases hd; exact ⟨0, fun _ _ => by simp [toJsonWithin]⟩
  | array _ ih =>
    cases hd with
    | array hcell hitems =>
      obtain ⟨k, hk⟩ := exists_map_eq (((forall₂_and_left _ _).2 ⟨ih, hitems⟩).imp fun _ _ hw => hw.1 hw.2)
      refine ⟨k + 1, fun n hn => ?_⟩
      obtain _ | n := n
      · omega
      rw [toJsonWithin, array_of_getElem? hcell, hk n (by omega)]
  | @object js _ _ ih =>
    cases hd with
    | @object _ ref fields hcell hnames hvalues =>
      obtain ⟨k, hk⟩ := exists_map_eq (((forall₂_and_left _ _).2 ⟨ih, hvalues⟩).imp fun _ _ hw => hw.1 hw.2)
      refine ⟨k + 1, fun n hn => ?_⟩
      obtain _ | n := n
      · omega
      have hall : fields.entries.filter (fun e => !e.2.isUndefined) = fields.entries := by
        have hdefined := forall_mem_of_forall₂ (hvalues.imp fun _ _ hw => hw.isUndefined_eq)
        refine filter_eq_self.2 fun e he => ?_
        rw [hdefined e.2 (mem_map_of_mem he)]
        rfl
      have hpairs : fields.entries.map (fun e => (e.1, h.toJsonWithin n e.2)) = js := by
        have hjs : js = (js.map (·.1)).zip (js.map (·.2)) := zip_of_prod rfl rfl
        rw [hjs, ← hnames, ← hk n (by omega)]
        exact zip_of_prod (by simp [Bindings.keys]) (by simp [Bindings.values])
      rw [toJsonWithin, object_of_getElem? hcell, hall, hpairs]

lemma Depicts.toJson_eq (hd : h.Depicts j v) : h.toJson v = j := by
  obtain ⟨k, hk⟩ := hd.exists_toJsonWithin hj
  have hacyclic : h.Acyclic v := loopFree_of_acc (hd.acc hj)
  rw [← hacyclic.toJsonWithin_eq (Nat.le_max_left h.depth k), hk _ (Nat.le_max_right _ _)]

end Depicts

lemma depicts_ofJsonItems {js : List Json} (hwritten : ∀ j ∈ js, Written j)
    (hread : ∀ j ∈ js, ∀ h : Heap, (h.ofJson j).2.Depicts j (h.ofJson j).1) (h : Heap) :
    Forall₂ (h.ofJsonItems js).2.Depicts js (h.ofJsonItems js).1 := by
  induction js generalizing h with
  | nil => exact .nil
  | cons j rest ih =>
    rw [forall_mem_cons] at hwritten hread
    rw [ofJsonItems]
    -- What was read first is still there after the others.
    exact .cons ((hread.1 h).mono hwritten.1 (.ofJsonItems _ rest)) (ih hwritten.2 hread.2 _)

lemma ofJsonFields_eq (h : Heap) (js : List (String × Json)) :
    (h.ofJsonFields js).2 = (h.ofJsonItems (js.map (·.2))).2 ∧
      (h.ofJsonFields js).1.map (·.1) = js.map (·.1) ∧
      (h.ofJsonFields js).1.map (·.2) = (h.ofJsonItems (js.map (·.2))).1 := by
  induction js generalizing h with
  | nil => exact ⟨rfl, rfl, rfl⟩
  | cons e rest ih =>
    obtain ⟨key, j⟩ := e
    obtain ⟨hheap, hnames, hvalues⟩ := ih (h.ofJson j).2
    simp [ofJsonFields, ofJsonItems, hheap, hnames, hvalues]

lemma depicts_ofJson {j : Json} (hj : Written j) (h : Heap) : (h.ofJson j).2.Depicts j (h.ofJson j).1 := by
  induction hj generalizing h with
  | null => exact .null
  | bool b => exact .bool b
  | number => exact .number _
  | string s => exact .string s
  | array hitems ih =>
    have hread := depicts_ofJsonItems hitems ih h
    rw [ofJson]
    refine .array Array.getElem?_push_size ?_
    exact ((forall₂_and_left _ _).2 ⟨hitems, hread⟩).imp fun _ _ hw => hw.2.mono hw.1 (.newArray _ _)
  | object hnames hvalues ih =>
    have hread := depicts_ofJsonItems hvalues ih h
    obtain ⟨hheap, hkeys, hitems⟩ := ofJsonFields_eq h _
    have hentries := Bindings.entries_ofList (hkeys ▸ hnames)
    rw [ofJson]
    refine .object Array.getElem?_push_size (by rw [Bindings.keys, hentries, hkeys]) ?_
    rw [Bindings.values, hentries, hitems]
    refine ((forall₂_and_left _ _).2 ⟨hvalues, hread⟩).imp fun _ _ hw => hw.2.mono hw.1 ?_
    rw [← hheap]
    exact .newObject _ _

/-! Copies. -/

/-- Two values of two heaps are made up alike: the same data, in lists item by item, in objects
under the same names in the same order. -/
inductive Alike (h h' : Heap) : Value → Value → Prop
  | null : Alike h h' .null .null
  | bool (b : Bool) : Alike h h' (.bool b) (.bool b)
  | number (x : Float) : Alike h h' (.number x) (.number x)
  | text (s : String) : Alike h h' (.text s) (.text s)
  | array {r r' : Nat} (hitems : Forall₂ (Alike h h') (h.array r).toList (h'.array r').toList) :
      Alike h h' (.array r) (.array r')
  | object {r r' : Nat} (hnames : (h.object r).keys = (h'.object r').keys)
      (hvalues : Forall₂ (Alike h h') (h.object r).values (h'.object r').values) :
      Alike h h' (.object r) (.object r')

lemma Depicts.alike {j : Json} (hj : Written j) {w : Value} (hv : h.Depicts j v)
    (hw : h'.Depicts j w) : h.Alike h' v w := by
  induction hj generalizing v w with
  | null => cases hv; cases hw; exact .null
  | bool b => cases hv; cases hw; exact .bool b
  | number => cases hv; cases hw; exact .number _
  | string s => cases hv; cases hw; exact .text s
  | array _ ih =>
    cases hv with
    | array hcell hitems =>
      cases hw with
      | array hcell' hitems' =>
        refine .array ?_
        rw [array_of_getElem? hcell, array_of_getElem? hcell']
        exact forall₂_of_common ((forall₂_and_left _ _).2 ⟨ih, hitems⟩) hitems' fun _ _ _ hx hy => hx.1 hx.2 hy
  | object _ _ ih =>
    cases hv with
    | object hcell hnames hvalues =>
      cases hw with
      | object hcell' hnames' hvalues' =>
        refine .object ?_ ?_
        · rw [object_of_getElem? hcell, object_of_getElem? hcell', hnames, hnames']
        · rw [object_of_getElem? hcell, object_of_getElem? hcell']
          exact forall₂_of_common ((forall₂_and_left _ _).2 ⟨ih, hvalues⟩) hvalues' fun _ _ _ hx hy => hx.1 hx.2 hy

/-- Null, truth values, texts, finite numbers but the negative zero, lists and objects. -/
def IsData (h : Heap) : Value → Prop
  | .null | .bool _ | .text _ => True
  | .number x => (∃ b, Decimal.decode x = .finite b) ∧ x ≠ -0
  | .array ref => ref < h.arrays.size
  | .object ref => ref < h.objects.size
  | _ => False

lemma IsData.isUndefined_eq (hv : h.IsData v) : v.isUndefined = false := by
  cases v <;> first | rfl | exact hv.elim

lemma depicts_toJson (hv : h.Acyclic v) (hdata : ∀ w, h.Reaches v w → h.IsData w) : h.Depicts (h.toJson v) v := by
  have hacc := hv.acc
  induction hacc with
  | intro v _ ih =>
    have hitems : ∀ w ∈ h.items v, h.Depicts (h.toJson w) w := fun w hw =>
      ih w hw (hv.of_reaches (.single hw)) fun u hu => hdata u (.head hw hu)
    have hself := hdata v .refl
    have hdeep := (hv.toJsonWithin_eq (Nat.le_succ h.depth)).symm
    cases v with
    | null => simpa only [toJson, toJsonWithin] using .null
    | bool b => simpa only [toJson, toJsonWithin] using .bool b
    | text s => simpa only [toJson, toJsonWithin] using .string s
    | number x =>
      obtain ⟨⟨b, hb⟩, hzero⟩ := hself
      obtain ⟨n, hn, hback⟩ := jsonNumber_eq_number hb hzero
      simp only [toJson, toJsonWithin, hn]
      exact hback ▸ .number n
    | array ref =>
      have hcell : h.arrays[ref]? = some (h.array ref) := by
        simp [array, Array.getElem?_eq_getElem hself, Array.getD_eq_getD_getElem?]
      rw [hdeep, toJsonWithin]
      exact .array hcell (forall₂_map_left_iff.2 (forall₂_same.2 hitems))
    | object ref =>
      have hcell : h.objects[ref]? = some (h.object ref) := by
        simp [object, Array.getElem?_eq_getElem hself, Array.getD_eq_getD_getElem?]
      have hall : (h.object ref).entries.filter (fun e => !e.2.isUndefined) = (h.object ref).entries := by
        refine filter_eq_self.2 fun e he => ?_
        rw [(hdata e.2 (.single (mem_map_of_mem he))).isUndefined_eq]
        rfl
      rw [hdeep, toJsonWithin, hall]
      refine .object hcell (by simp [Bindings.keys]) ?_
      rw [map_map, Bindings.values, forall₂_map_left_iff, forall₂_map_right_iff]
      exact forall₂_same.2 fun e he => hitems e.2 (mem_map_of_mem he)
    | _ => exact hself.elim

lemma toJson_ofJson_toJson (h h' : Heap) (v : Value) :
    (h'.ofJson (h.toJson v)).2.toJson (h'.ofJson (h.toJson v)).1 = h.toJson v :=
  have hwritten := h.written_toJsonWithin h.depth v
  (depicts_ofJson hwritten h').toJson_eq hwritten

lemma alike_ofJson_toJson (h' : Heap) (hv : h.Acyclic v) (hdata : ∀ w, h.Reaches v w → h.IsData w) :
    h.Alike (h'.ofJson (h.toJson v)).2 v (h'.ofJson (h.toJson v)).1 :=
  have hwritten := h.written_toJsonWithin h.depth v
  (depicts_toJson hv hdata).alike hwritten (depicts_ofJson hwritten h')

end Heap
end StoryMarkup.Script
