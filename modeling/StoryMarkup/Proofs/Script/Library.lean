import StoryMarkup.Proofs.Script.Accord

/-! The library under comparison: it keeps machines in accord, but for texts of unchecked length. -/
namespace StoryMarkup

open List

namespace Json

mutual

def texts : Json → List String
  | .string s => [s]
  | .array items => textsOfItems items
  | .object fields => textsOfFields fields
  | _ => []

def textsOfItems : List Json → List String
  | [] => []
  | j :: rest => j.texts ++ textsOfItems rest

def textsOfFields : List (String × Json) → List String
  | [] => []
  | (_, j) :: rest => j.texts ++ textsOfFields rest

end

end Json

namespace Script

open ScriptM

/-! Functions that build texts and do not look at their length. -/

def TextMethod.limited : TextMethod → Bool
  | .concat | .replace | .replaceAll | .toUpperCase | .toLowerCase => false
  | _ => true

def ListMethod.limited : ListMethod → Bool
  | .join | .toString => false
  | _ => true

def ListMethod.writes : ListMethod → Bool
  | .push | .pop | .shift | .unshift | .splice | .reverse => true
  | _ => false

def Builtin.limited : Builtin → Bool
  | .toText | .keys | .entries | .arrayFrom | .jsonStringify | .jsonParse => false
  | _ => true

/-- What is made of the number of an argument that may be undefined. -/
def Heap.counted (h : Heap) (count : Float → Nat) (default : Nat) (v : Value) : Nat :=
  if v.isUndefined then default else count (h.toNumber v)

lemma argCount_eq {ω : Type} (args : List Value) (i : Nat) (count : Float → Nat) (default : Nat) (m : Machine ω) :
    argCount args i count default m = .ok (m.heap.counted count default (arg args i)) m := by
  unfold argCount arg
  rcases given args i with _ | v
  · rfl
  · cases v <;> rfl

lemma spliceRange_eq {ω : Type} (length : Nat) (args : List Value) (m : Machine ω) :
    let start := m.heap.counted (relativePosition length) 0 (arg args 0)
    let count := m.heap.counted (fun x => min (Decimal.toCount x) (length - start)) (length - start) (arg args 1)
    spliceRange length args m = .ok (start, count) m := by
  intro start count
  simp only [spliceRange, argPosition, bind, EStateM.bind, argCount_eq]
  rfl

namespace Kind

variable {k : Kind} {s : String} {γ : Type}

lemma all_slice (hs : k.All (Value.text s)) (i j : Nat) : k.All (Value.text (Text.slice s.toList.toArray i j)) := by
  refine k.part ?_ hs
  simp only [Text.slice, String.length_ofList, Array.length_toList, Array.size_extract,
    size_toArray, String.length_toList]
  omega

lemma all_map_text {l : List γ} {f : γ → String} (h : ∀ c ∈ l, k.All (Value.text (f c))) :
    k.All (l.map fun c => Value.text (f c)) := by
  intro v hv
  obtain ⟨c, hc, rfl⟩ := mem_map.1 hv
  exact h c hc

lemma all_groupValues (hs : k.All (Value.text s)) (m : Pattern.Match) : k.All (groupValues m s.toList.toArray) := by
  intro v hv
  obtain ⟨o, ho, rfl⟩ := mem_map.1 hv
  obtain ⟨g, -, rfl⟩ := mem_map.1 ho
  cases g with
  | none => exact all_undefined
  | some g => exact all_slice hs g.1 g.2

lemma all_split (hs : k.All (Value.text s)) (p : Pattern) : k.All ((p.split s.toList.toArray).map Value.text) := by
  have hpieces : ∀ ms start, k.All ((Pattern.split.pieces s.toList.toArray start ms).map Value.text) := by
    intro ms
    induction ms with
    | nil => simp [Pattern.split.pieces, all_slice hs]
    | cons m rest ih => simp [Pattern.split.pieces, all_slice hs, ih]
  exact hpieces _ 0

lemma length_le_of_mem_splitFrom {sep cs : List Char} {skip : Nat} {piece part : List Char}
    (h : part ∈ Text.splitFrom sep skip piece cs) : part.length ≤ piece.length + cs.length := by
  fun_induction Text.splitFrom sep skip piece cs with
  | case1 skip piece => simp_all
  | case2 skip piece c cs ih =>
    have := ih h
    simp only [length_cons]
    omega
  | case3 piece c cs _ ih =>
    rcases mem_cons.1 h with rfl | h
    · simp
    · have := ih h
      simp only [length_nil, length_cons] at this ⊢
      omega
  | case4 piece c cs _ ih =>
    have := ih h
    simp only [length_cons] at this ⊢
    omega

lemma all_splitAt (hs : k.All (Value.text s)) (sep : List Char) :
    k.All ((Text.splitAt sep s.toList).map fun part => Value.text (String.ofList part)) :=
  all_map_text fun part hpart => k.part (by simpa [← String.length_toList] using length_le_of_mem_splitFrom hpart) hs

lemma length_dropBlankEnd_le (cs : List Char) : (Text.dropBlankEnd cs).length ≤ cs.length := by
  simpa [Text.dropBlankEnd] using (dropWhile_sublist Text.isBlank (l := cs.reverse)).length_le

lemma all_trim (hs : k.All (Value.text s)) : k.All (Value.text (Text.trim s)) ∧
    k.All (Value.text (Text.trimStart s)) ∧ k.All (Value.text (Text.trimEnd s)) := by
  have hstart := (dropWhile_sublist Text.isBlank (l := s.toList)).length_le
  have hboth := length_dropBlankEnd_le (s.toList.dropWhile Text.isBlank)
  have hend := length_dropBlankEnd_le s.toList
  rw [String.length_toList] at hstart hend
  refine ⟨k.part ?_ hs, k.part ?_ hs, k.part ?_ hs⟩ <;>
    simp only [Text.trim, Text.trimChars, Text.trimStart, Text.trimEnd, String.length_ofList] <;> omega

lemma length_join_replicate (s : String) (count : Nat) : (String.join (replicate count s)).length =
    s.length * count := by
  induction count with
  | zero => simp
  | succ count ih => simp [replicate_succ, ih, Nat.mul_succ, Nat.add_comm]

end Kind

namespace Accord

variable {ω ω' : Type}

def AnyText (A : Accord ω ω') : Prop := ∀ w s, (A.kind w).holds (.text s)

def UpTo (A : Accord ω ω') (limited : Bool) (w : Machine ω') (v : Value) : Prop :=
  (A.kind w).All v ∨ limited = false ∧ ∃ s, v = .text s

def KnownTexts (A : Accord ω ω') (w : Machine ω') (texts : List String) : Prop := (A.kind w).All (texts.map Value.text)

variable {A : Accord ω ω'} {n : Nat} {w : Machine ω'} {args : List Value} {s : String}

@[simp] lemma upTo_text (s : String) : A.UpTo false w (.text s) := .inr ⟨rfl, s, rfl⟩

namespace AbreastTo

lemma upTo {x : ScriptM ω Value} {y : ScriptM ω' Value} (h : A.Abreast n w x y) (limited : Bool) :
    A.AbreastTo n w (A.UpTo limited) x y :=
  h.imp fun _ _ _ => .inl

lemma known {x : ScriptM ω Value} {y : ScriptM ω' Value} {limited : Bool}
    (hany : A.AnyText ∨ limited = true)
    (h : A.AbreastTo n w (A.UpTo limited) x y) : A.Abreast n w x y := by
  refine h.imp fun w' v _ hv => ?_
  obtain hv | ⟨hlimited, s, rfl⟩ := hv
  · exact hv
  · exact (hany.resolve_right (by simp [hlimited])) w' s

lemma pure_text (s : String) :
    A.AbreastTo n w (A.UpTo false) (Pure.pure (.text s) : ScriptM ω Value) (Pure.pure (.text s) : ScriptM ω' Value) :=
  pureTo fun _ _ => upTo_text s

@[simp] lemma argText (args : List Value) (i : Nat) : A.Both n w (argText args i) := by
  unfold ScriptM.argText
  cases given args i <;> simp

@[simp] lemma argTextOr (args : List Value) (i : Nat) (default : String) : A.Both n w (argTextOr args i default) := by
  unfold ScriptM.argTextOr
  rcases given args i with _ | v
  · simp
  · cases v <;> simp

@[simp] lemma argNumber (args : List Value) (i : Nat) : A.Both n w (argNumber args i) := by
  unfold ScriptM.argNumber
  cases given args i <;> simp

@[simp] lemma argCount (args : List Value) (i : Nat) (count : Float → Nat) (default : Nat) :
    A.Both n w (argCount args i count default) := by
  unfold ScriptM.argCount
  rcases given args i with _ | v
  · simp
  · cases v <;> simp

@[simp] lemma argPosition (args : List Value) (i length default : Nat) :
    A.Both n w (argPosition args i length default) := argCount args i _ default

@[simp] lemma argFunction (args : List Value) (method : String) : A.Both n w (argFunction args method) := by
  unfold ScriptM.argFunction
  rcases args.head? with _ | v
  · simp
  · cases v <;> simp

@[simp] lemma iterate (v : Value) : A.Both n w (iterate v) := by
  unfold ScriptM.iterate
  cases v with
  | array ref => exact bind heap fun _ _ _ hh => pure (Kind.all_array hh ref)
  | text s => exact pure (Kind.all_chars s)
  | _ => simp

lemma pairs {fields : List (String × Value)} (hfields : (A.kind w).All fields)
    (hkeys : ∀ e ∈ fields, (A.kind w).All (Value.text e.1)) : A.Both n w (pairs fields) :=
  mapM fun _ e hle he => newList (by simpa using ⟨mono hle (hkeys e he), mono hle (hfields e he).2⟩)

lemma draw (hruns : A.Runs) : A.Both n w draw :=
  of_ok (fun _ => rfl) fun m m' hr _ =>
    have ⟨hr', hle'⟩ := hruns.set_random (nextRandom m.random) hr
    ⟨_, _, _, rfl, by rw [← hruns.random_eq hr]; rfl, hr', hle', Kind.all_number _⟩

lemma stringify (args : List Value) :
    A.AbreastTo n w (A.UpTo false) (stringify args : ScriptM ω Value) (stringify args : ScriptM ω' Value) := by
  unfold ScriptM.stringify
  cases arg args 0 with
  | undefined | function ref => exact upTo (pure Kind.all_undefined) false
  | _ => exact bind heap fun _ _ _ _ => pure_text _

end AbreastTo

section Json

variable {α : Type} [Holding α] {m : Machine ω} {m' : Machine ω'}

def Makes (A : Accord ω ω') (n : Nat) (m : Machine ω) (m' : Machine ω') (r : α × Heap) : Prop :=
  A.rel n { m with heap := r.2 } { m' with heap := r.2 } ∧ A.le m' { m' with heap := r.2 } ∧
    (A.kind { m' with heap := r.2 }).All r.1

lemma makes_nothing {a : α} (hr : A.rel n m m') (ha : (A.kind m').All a) : A.Makes n m m' (a, m.heap) := by
  have hsame : { m' with heap := m.heap } = m' := by rw [← A.heap_eq hr]
  exact ⟨hsame.symm ▸ hr, hsame.symm ▸ A.le_refl m', hsame.symm ▸ ha⟩

lemma Makes.trans {β : Type} [Holding β] {r : α × Heap} {r' : β × Heap} (h : A.Makes n m m' r)
    (h' : A.Makes n { m with heap := r.2 } { m' with heap := r.2 } r') : A.Makes n m m' r' :=
  ⟨h'.1, A.le_trans h.2.1 h'.2.1, h'.2.2⟩

mutual

theorem ofJson (j : Json) {m : Machine ω} {m' : Machine ω'} (hr : A.rel n m m')
    (htexts : ∀ s ∈ j.texts, (A.kind m').All (Value.text s)) : A.Makes n m m' (m.heap.ofJson j) := by
  rw [Heap.ofJson.eq_def]
  cases j with
  | null | bool _ | number _ => exact makes_nothing hr ((A.kind m').atom rfl)
  | string s => exact makes_nothing hr (htexts s (by simp [Json.texts]))
  | array items =>
    have hitems := ofJsonItems items hr (by simpa only [Json.texts] using htexts)
    exact hitems.trans (A.make_cell hitems.1 (.array fun v hv => hitems.2.2 v (by simpa using hv)))
  | object fields =>
    have hfields := ofJsonFields fields hr (by simpa only [Json.texts] using htexts)
    exact hfields.trans (A.make_cell hfields.1 (.object (Kind.all_ofList hfields.2.2)))

theorem ofJsonItems (items : List Json) {m : Machine ω} {m' : Machine ω'} (hr : A.rel n m m')
    (htexts : ∀ s ∈ Json.textsOfItems items, (A.kind m').All (Value.text s)) :
    A.Makes n m m' (m.heap.ofJsonItems items) := by
  cases items with
  | nil => exact makes_nothing hr Kind.all_nil
  | cons j rest =>
    rw [Json.textsOfItems, forall_mem_append] at htexts
    have ⟨hr', hle', hv⟩ := ofJson j hr htexts.1
    have ⟨hr'', hle'', hvs⟩ := ofJsonItems rest hr' fun s hs => mono hle' (htexts.2 s hs)
    rw [Heap.ofJsonItems]
    exact ⟨hr'', A.le_trans hle' hle'', Kind.all_cons.2 ⟨mono hle'' hv, hvs⟩⟩

theorem ofJsonFields (fields : List (String × Json)) {m : Machine ω} {m' : Machine ω'}
    (hr : A.rel n m m') (htexts : ∀ s ∈ Json.textsOfFields fields, (A.kind m').All (Value.text s)) :
    A.Makes n m m' (m.heap.ofJsonFields fields) := by
  cases fields with
  | nil => exact makes_nothing hr Kind.all_nil
  | cons e rest =>
    obtain ⟨key, j⟩ := e
    rw [Json.textsOfFields, forall_mem_append] at htexts
    have ⟨hr', hle', hv⟩ := ofJson j hr htexts.1
    have ⟨hr'', hle'', hes⟩ := ofJsonFields rest hr' fun s hs => mono hle' (htexts.2 s hs)
    rw [Heap.ofJsonFields]
    exact ⟨hr'', A.le_trans hle' hle'', Kind.all_cons.2 ⟨⟨trivial, mono hle'' hv⟩, hes⟩⟩

end

end Json

namespace AbreastTo

lemma parseJson (hs : ∀ json, Json.parse s = .ok json → ∀ t ∈ json.texts, (A.kind w).All
    (Value.text t)) : A.Both n w (parseJson s) := by
  unfold ScriptM.parseJson
  cases hjson : Json.parse s with
  | ok json =>
    exact of_ok (fun _ => rfl) fun m m' hr hle =>
      ⟨_, _, _, rfl, by rw [← A.heap_eq hr]; rfl, ofJson json hr fun t ht => mono hle (hs json hjson t ht)⟩
  | error e => exact throw _

lemma assignFields (hwrites : A.Writes) (hargs : (A.kind w).All args)
    (h : ∀ ref, args.head? = some (.object ref) → ¬ A.marked ref) : A.Both n w (assignFields args) := by
  rcases args with _ | ⟨v, sources⟩
  · exact refuse _
  · cases v with
    | object ref =>
      have hkeep := h ref rfl
      refine bind (forM sources fun _ v _ => bind heap fun _ _ _ hh => ?_) fun _ _ hle _ =>
        pure (mono hle (Kind.all_cons.1 hargs).1)
      exact modifyObject hwrites hkeep fun _ _ hle hb => Kind.all_insertAll hb (mono hle (Kind.all_fieldsOf hh v))
    | _ => exact refuse _

lemma callBuiltin (hruns : A.Runs) {b : Builtin} (hany : A.AnyText ∨ b.limited = true)
    (hwrites : b = .assign → A.Writes ∧ (A.kind w).All args ∧ ∀ ref, args.head? =
    some (.object ref) → ¬ A.marked ref) : A.Both n w (callBuiltin b args) := by
  have htext : b.limited = false → A.AnyText := fun hb => hany.resolve_right (by simp [hb])
  unfold ScriptM.callBuiltin
  cases b with
  | assign =>
    have ⟨hwrites, hargs, hkeep⟩ := hwrites rfl
    exact assignFields hwrites hargs hkeep
  | random => exact draw hruns
  | parseInt | numberParseInt => cases given args 1 <;> simp
  | numberIsNaN | isInteger | isFinite | arrayIsArray => cases arg args 0 <;> simp
  | values => exact bind heap fun _ _ _ hh => newList (Kind.all_values (Kind.all_fieldsOf hh _))
  | toText => exact bind (argText args 0) fun _ s _ _ => pure (htext rfl _ s)
  | keys => exact bind heap fun _ _ _ _ => newList (Kind.all_map_text fun _ _ => htext rfl _ _)
  | entries =>
    exact bind heap fun _ _ _ hh => bind (pairs (Kind.all_fieldsOf hh _) fun _ _ => htext rfl _ _) fun _ _ _ => newList
  | arrayFrom =>
    cases arg args 0 with
    | object ref =>
      exact bind heap fun _ _ _ hh => bind (pairs (Kind.all_entries (Kind.all_object hh ref))
        fun _ _ => htext rfl _ _) fun _ _ _ => newList
    | _ => exact bind (iterate _) fun _ _ _ => newList
  | jsonStringify => exact known hany (stringify args)
  | jsonParse => exact bind (display _) fun _ _ _ _ => parseJson fun _ _ _ _ => htext rfl _ _
  | _ => simp

@[simp] lemma namespaceFields (name : String) : A.Both n w (namespaceFields name) :=
  bind (mapM fun _ e _ _ => bind (newBuiltin e.2) fun _ _ _ hv =>
    pure (Kind.all_pair.2 ⟨trivial, hv⟩)) fun _ _ _ hes => pure (Kind.all_ofList hes)

@[simp] lemma global? (name : String) : A.Both n w (global? name) := by
  have hfields : ∀ fields constants, (A.kind w).All constants → A.Both n w (do
      let b ← ScriptM.namespaceFields fields
      return some (← ScriptM.newObject (b.insertAll constants))) := by
    intro fields constants hconstants
    refine bind (namespaceFields fields) fun _ _ hle hb => ?_
    exact bind (newObject (Kind.all_insertAll hb (mono hle hconstants))) fun _ _ _ hv => pure (Kind.all_some.2 hv)
  unfold ScriptM.global?
  split
  · exact hfields "Math" _ (by simp)
  · exact hfields "JSON" [] Kind.all_nil
  · exact hfields "Object" [] Kind.all_nil
  · exact hfields "Array" [] Kind.all_nil
  · cases Builtin.ofName? name <;> simp

lemma callNumberMethod (x : Float) (m : NumberMethod) (args : List Value) :
    A.AbreastTo n w (A.UpTo false) (callNumberMethod x m args : ScriptM ω Value)
      (callNumberMethod x m args : ScriptM ω' Value) := by
  unfold ScriptM.callNumberMethod
  cases m with
  | toFixed => cases args <;> simp [pure_text]
  | toString =>
    rcases args with _ | ⟨v, rest⟩
    · simp [pure_text]
    · cases v <;> simp [pure_text]

@[simp] lemma patternOfText (s : String) : A.Both n w (ScriptM.lift (Pattern.ofText s)) := by
  refine lift (fun _ _ => trivial) fun e he => ?_
  unfold Pattern.ofText Pattern.ofTree at he
  split at he <;> cases he
  rfl

@[simp] lemma argPattern (args : List Value) : A.Both n w (argPattern args) := by
  unfold ScriptM.argPattern
  rcases args.head? with _ | v
  · simp
  · cases v with
    | pattern ref =>
      refine bind heap fun _ h _ _ => ?_
      cases h.pattern? ref <;> simp
    | _ => simp

lemma firstMatch (p : Pattern) (hs : (A.kind w).All (Value.text s)) : A.Both n w (firstMatch p s.toList.toArray) := by
  unfold ScriptM.firstMatch
  cases p.program.find? s.toList.toArray 0 with
  | some m => exact newList (Kind.all_groupValues hs m)
  | none => simp

lemma matchText (p : Pattern) (hs : (A.kind w).All (Value.text s)) : A.Both n w (matchText p s.toList.toArray) := by
  have hms : ∀ ms : List Pattern.Match, (A.kind w).All (ms.map fun m => Value.text (m.text s.toList.toArray)) :=
    fun ms => Kind.all_map_text fun m _ => Kind.all_slice hs _ _
  unfold ScriptM.matchText
  refine ite ?_ (firstMatch p hs)
  split
  · simp
  · exact newList (hms _)

lemma splitParts (hs : (A.kind w).All (Value.text s)) (args : List Value) :
    A.AbreastTo n w A.KnownTexts (splitParts s args : ScriptM ω _) (splitParts s args : ScriptM ω' _) := by
  have hsame : ∀ w', A.le w w' → A.KnownTexts w' [s] := fun w' hle => by simpa [KnownTexts] using mono hle hs
  unfold ScriptM.splitParts
  rcases args.head? with _ | v
  · exact pureTo hsame
  · cases v with
    | undefined => exact pureTo hsame
    | pattern ref =>
      refine bind heap fun w' h hle _ => ?_
      cases h.pattern? ref with
      | some p => exact pureTo fun _ hle' => Kind.all_split (mono (A.le_trans hle hle') hs) p
      | none => exact pureTo fun _ hle' => hsame _ (A.le_trans hle hle')
    | _ =>
      refine bind (display _) fun w' sep hle _ => ite (pureTo fun _ _ => ?_) (pureTo fun w'' hle' => ?_)
      · rw [KnownTexts, map_map]
        exact Kind.all_chars s
      · rw [KnownTexts, map_map]
        exact Kind.all_splitAt (mono (A.le_trans hle hle') hs) sep.toList

lemma limitParts (args : List Value) {parts : List String} (hparts : A.KnownTexts w parts) :
    A.AbreastTo n w A.KnownTexts (limitParts args parts : ScriptM ω _) (limitParts args parts : ScriptM ω' _) := by
  have hkept : ∀ w' kept, A.le w w' → (∀ t ∈ kept, t ∈ parts) → A.KnownTexts w' kept := fun w' kept hle hkept =>
    mono hle (Kind.all_of_subset hparts fun v hv => by
      obtain ⟨t, ht, rfl⟩ := mem_map.1 hv
      exact mem_map_of_mem (hkept t ht))
  unfold ScriptM.limitParts
  rcases given args 1 with _ | v
  · exact pureTo fun w' hle => hkept w' parts hle fun _ => id
  · cases v with
    | undefined | null => exact pureTo fun w' hle => hkept w' parts hle fun _ => id
    | _ =>
      exact bind (toNumber _) fun w' x hle _ => pureTo fun w'' hle' =>
        hkept w'' _ (A.le_trans hle hle') fun _ => mem_of_mem_take

lemma splitText (hs : (A.kind w).All (Value.text s)) (args : List Value) : A.Both n w (splitText s args) :=
  have hfree {k : Nat} (hlax : A.lax k) (w : Machine ω') (parts : List String) : A.KnownTexts w parts :=
    Holding.of_forall ((A.free hlax).1 w)
  bindTo (splitParts hs args) (fun hlax => hfree hlax w) fun w' _ _ hparts =>
    bindTo (limitParts args hparts) (fun hlax => hfree hlax w') fun _ _ _ => newList

lemma padText (atStart : Bool) (hs : (A.kind w).All (Value.text s)) (args : List Value) :
    A.Both n w (padText atStart s args) := by
  refine bind (argNumber args 0) fun _ x hle _ => bind (argTextOr args 1 _) fun w' fill hle' _ => ?_
  by_cases hshort : (Decimal.toCount x ≤ s.length || fill.isEmpty) = true
  · simp only [if_pos hshort]
    exact pure (mono (A.le_trans hle hle') hs)
  · simp only [if_neg hshort]
    refine checkTextLength fun hlength => pure ((A.kind w').short ?_)
    simp only [Bool.or_eq_true, decide_eq_true_eq, not_or, Nat.not_le] at hshort
    cases atStart <;> simp [Text.cycle] <;> omega

lemma repeatText (s : String) (args : List Value) :
    A.Abreast n w (repeatText A.left s args : ScriptM ω Value) (repeatText A.right s args : ScriptM ω' Value) := by
  refine bind (argNumber args 0) fun _ x _ _ => ite (refuse _) ?_
  refine bind (checkIterations _) fun w' _ _ _ => checkTextLength fun hlength => pure ((A.kind w').short ?_)
  rwa [Kind.length_join_replicate]

lemma callPatternMethod (p : Pattern) {m : PatternMethod} (hm : A.AnyText ∨ m ≠ .exec) (args : List Value) :
    A.AbreastTo n w (A.UpTo false) (callPatternMethod p m args : ScriptM ω Value)
      (callPatternMethod p m args : ScriptM ω' Value) := by
  unfold ScriptM.callPatternMethod
  cases m with
  | test => exact upTo (by simp) false
  | exec => exact upTo (bind (argText args 0) fun _ s _ _ => firstMatch p (hm.resolve_right (by simp) _ s)) false
  | toString => exact pure_text _

/-! Methods that call a function keep machines in accord if the calls do. -/

section Calls

variable {call : Value → List Value → ScriptM ω Value} {call' : Value → List Value → ScriptM ω' Value}
  (hcall : ∀ {w : Machine ω'} {f : Value} {args : List Value}, (A.kind w).All args → A.Abreast n w
    (call f args) (call' f args))
include hcall

lemma walkItems (walk : Walk) (f : Value) {list : Value} (i : Nat) {kept items : List Value}
    (hlist : (A.kind w).All list) (hkept : (A.kind w).All kept) (hitems : (A.kind w).All items) :
    A.Abreast n w (walkItems call walk f list i kept items) (walkItems call' walk f list i kept items) := by
  induction items generalizing i kept w with
  | nil =>
    have hreverse : (A.kind w).All kept.reverse := Kind.all_of_subset hkept fun _ => mem_reverse.1
    cases walk <;> simp [ScriptM.walkItems, hreverse]
  | cons v rest ih =>
    rw [Kind.all_cons] at hitems
    unfold ScriptM.walkItems
    refine bind (hcall (by simp [hitems.1, hlist])) fun w' r hle hr => ?_
    have hgo : ∀ {kept}, (A.kind w').All kept → A.Abreast n w' (ScriptM.walkItems call walk f list
        (i + 1) kept rest) (ScriptM.walkItems call' walk f list (i + 1) kept rest) :=
      fun hkept => ih (i + 1) (mono hle hlist) hkept (mono hle hitems.2)
    have hkept := mono hle hkept
    have hv := mono hle hitems.1
    cases walk <;> cases r.isTruthy <;> simp [hgo, hkept, hv, hr]

lemma walkList (walk : Walk) {ref : Nat} (args : List Value) (href : (A.kind w).All (Value.array ref)) :
    A.Abreast n w (walkList call A.left walk ref args) (walkList call' A.right walk ref args) :=
  bind (argFunction args _) fun _ f hle _ => bind heap fun _ _ hle' hh => bind (checkIterations _) fun _ _ hle'' _ =>
    walkItems hcall walk f 0 (mono (A.le_trans (A.le_trans hle hle') hle'') href) Kind.all_nil
      (mono hle'' (Kind.all_array hh ref))

lemma reduceItems (f : Value) (i : Nat) {acc : Value} {items : List Value} (hacc : (A.kind w).All acc)
    (hitems : (A.kind w).All items) : A.Abreast n w (reduceItems call f i acc items)
      (reduceItems call' f i acc items) := by
  induction items generalizing i acc w with
  | nil => exact pure hacc
  | cons v rest ih =>
    rw [Kind.all_cons] at hitems
    exact bind (hcall (by simp [hacc, hitems.1])) fun _ _ hle hacc => ih (i + 1) hacc (mono hle hitems.2)

lemma reduceList (ref : Nat) (hargs : (A.kind w).All args) :
    A.Abreast n w (reduceList call A.left ref args) (reduceList call' A.right ref args) := by
  refine bind (argFunction args _) fun _ f hle _ => bind heap fun _ h hle' hh =>
    bind (checkIterations _) fun _ _ hle'' _ => ?_
  have hitems := mono hle'' (Kind.all_array hh ref)
  generalize hstart : given args 1 = start
  generalize (h.array ref).toList = items at hitems
  cases start with
  | some start =>
    have hknown := hargs start (mem_of_getElem? hstart)
    exact reduceItems hcall f 0 (mono (A.le_trans (A.le_trans hle hle') hle'') hknown) hitems
  | none =>
    cases items with
    | nil => exact refuse _
    | cons v rest => exact reduceItems hcall f 1 (Kind.all_cons.1 hitems).1 (Kind.all_cons.1 hitems).2

lemma sortedItems (ref : Nat) (args : List Value) :
    A.Abreast n w (sortedItems call A.left ref args) (sortedItems call' A.right ref args) := by
  refine bind heap fun _ h _ hh => bind (checkIterations _) fun w' _ hle' _ => ?_
  have hitems : (A.kind w').All (h.array ref).toList := mono hle' (Kind.all_array hh ref)
  split
  · have hall : ∀ sorted : List { v // v ∈ (h.array ref).toList }, (A.kind w').All sorted :=
      fun _ v _ => hitems v v.property
    refine bind (run _ hall fun w'' u v hle => ?_) fun _ sorted _ hsorted => ?_
    · have huv : (A.kind w'').All [u.val, v.val] := by
        simp [mono hle (hitems u u.property), mono hle (hitems v v.property)]
      exact bind (hcall huv) fun _ r _ _ => bind (toNumber r) fun _ _ _ _ => pure trivial
    · refine pure fun v hv => ?_
      obtain ⟨hmem, hv⟩ := mem_unattach.1 hv
      exact hsorted _ hv
  · refine bind heap fun _ _ hle'' _ => pure (Kind.all_of_subset (mono hle'' hitems) fun v hv => ?_)
    obtain ⟨e, he, rfl⟩ := mem_map.1 hv
    obtain ⟨w, hw, rfl⟩ := mem_map.1 (mem_mergeSort.1 he)
    exact hw

omit hcall in
@[simp] lemma spliceRange (length : Nat) (args : List Value) : A.Both n w (spliceRange length args) :=
  bind (argPosition args 0 _ _) fun _ _ _ _ => bind (argCount args 1 _ _) fun _ _ _ _ => by simp

lemma callListMethod {ref : Nat} {m : ListMethod}
    (hwrites : A.Writes ∨ m ≠ .sort ∧ m.writes = false)
    (href : (A.kind w).All (Value.array ref)) (hargs : (A.kind w).All args) :
    A.AbreastTo n w (A.UpTo m.limited) (callListMethod call A.left ref m args)
      (callListMethod call' A.right ref m args) := by
  refine bind heap fun w' h hle hh => ?_
  have hitems : (A.kind w').All (h.array ref).toList := Kind.all_array hh ref
  have hitem {o : Option Value} (ho : ∀ v ∈ o, v ∈ h.array ref) : (A.kind w').All (o.getD .undefined) :=
    Kind.all_getD fun v hv => hitems v (ho v hv).val
  have href := mono hle href
  have hargs := mono hle hargs
  have hwrites : m.writes = true ∨ m = .sort → A.Writes := fun hm =>
    hwrites.resolve_right fun hnot => hm.elim (fun hm => by simp [hm] at hnot) fun hm => hnot.1 hm
  cases m with
  | join => exact bind (argTextOr args 0 _) fun _ _ _ _ => bind heap fun _ _ _ _ => pure_text _
  | toString => exact bind heap fun _ _ _ _ => pure_text _
  | push =>
    refine upTo (bind (modifyArray (hwrites (.inl rfl)) ref fun _ _ hle' hold => ?_) fun _ _ _ _ =>
      pure (Kind.all_number _)) true
    simpa using ⟨hold, mono hle' hargs⟩
  | pop =>
    refine upTo (bind (modifyArray (hwrites (.inl rfl)) ref fun _ _ _ hold => Kind.all_of_subset hold fun v hv => ?_)
      fun _ _ hle' _ => pure (mono hle' (hitem fun v hv => Array.mem_of_back? hv))) true
    rw [Array.toList_pop] at hv
    exact (dropLast_sublist _).mem hv
  | shift =>
    exact upTo (bind (modifyArray (hwrites (.inl rfl)) ref fun _ _ _ hold => Kind.all_extract hold _ _)
      fun _ _ hle' _ => pure (mono hle' (hitem fun v hv => Array.mem_of_getElem? hv))) true
  | unshift =>
    refine upTo (bind (modifyArray (hwrites (.inl rfl)) ref fun _ _ hle' hold => ?_) fun _ _ _ _ =>
      pure (Kind.all_number _)) true
    simpa using ⟨mono hle' hargs, hold⟩
  | splice =>
    refine upTo (bind (spliceRange _ args) fun w'' range hle' _ => ?_) true
    refine bind (modifyArray (hwrites (.inl rfl)) ref fun _ old hle'' hold => ?_) fun _ _ hle'' _ =>
      newArray (Kind.all_extract (mono (A.le_trans hle' hle'') hitems) _ _)
    have hnew := Kind.all_of_subset (mono (A.le_trans hle' hle'') hargs) fun v hv => mem_of_mem_drop (i := 2) hv
    rw [Array.toList_append, Array.toList_append, Kind.all_append, Kind.all_append]
    exact ⟨⟨Kind.all_extract hold _ _, hnew⟩, Kind.all_extract hold _ _⟩
  | reverse =>
    exact upTo (bind (modifyArray (hwrites (.inl rfl)) ref fun _ _ _ hold => Kind.all_of_subset hold
      fun v hv => by simpa using hv) fun _ _ hle' _ => pure (mono hle' href)) true
  | sort =>
    refine upTo (bind (sortedItems hcall ref args) fun _ sorted hle' hsorted => ?_) true
    exact bind (modifyArray (hwrites (.inr rfl)) ref fun _ _ hle'' _ => by simpa using mono hle'' hsorted)
      fun _ _ hle'' _ => pure (mono (A.le_trans hle' hle'') href)
  | reduce => exact upTo (reduceList hcall ref hargs) true
  | walk walk => exact upTo (walkList hcall walk args href) true
  | «at» =>
    refine upTo (bind (argNumber args 0) fun _ x hle' _ => pure (mono hle' (hitem fun v hv => ?_))) true
    exact Array.mem_of_getElem? (Option.ite_none_right_eq_some.1 hv).2
  | slice =>
    exact upTo (bind (argPosition args 0 _ _) fun _ _ hle' _ => bind (argPosition args 1 _ _) fun _ _ hle'' _ =>
      newArray (Kind.all_extract (mono (A.le_trans hle' hle'') hitems) _ _)) true
  | concat =>
    exact upTo (bind heap fun _ _ hle' hh =>
      newList (Kind.all_append.2 ⟨mono hle' hitems, Kind.all_flattenItems hh (mono hle' hargs)⟩)) true
  | flat => exact upTo (bind heap fun _ _ hle' hh => newList (Kind.all_flattenItems hh (mono hle' hitems))) true
  | indexOf | lastIndexOf =>
    refine upTo ?_ true
    dsimp only
    split <;> simp
  | includes => exact upTo (by simp) true

lemma replacementOf (p : Pattern) (hs : (A.kind w).All (Value.text s)) (replacement : Value)
    (m : Pattern.Match) : A.Abreast n w (replacementOf call p s s.toList.toArray replacement m)
      (replacementOf call' p s s.toList.toArray replacement m) := by
  unfold ScriptM.replacementOf
  cases replacement with
  | function ref => exact bind (hcall (by simp [Kind.all_groupValues hs, hs])) fun _ v _ _ => display v
  | _ => simp

lemma replaceText (all : Bool) (hs : (A.kind w).All (Value.text s)) (args : List Value) :
    A.AbreastTo n w (A.UpTo false) (replaceText call all s args) (replaceText call' all s args) := by
  have hreplace : ∀ {w : Machine ω'} (_ : (A.kind w).All (Value.text s)) (p : Pattern)
      (ms : List Pattern.Match) start done,
      A.Abreast n w (replaceMatches (ScriptM.replacementOf call p s s.toList.toArray (arg args 1))
        s.toList.toArray start ms done)
        (replaceMatches (ScriptM.replacementOf call' p s s.toList.toArray (arg args 1))
          s.toList.toArray start ms done) := by
    intro w hs p ms
    induction ms generalizing w with
    | nil => exact fun _ _ => pure trivial
    | cons m rest ih => exact fun _ _ => bind (replacementOf hcall p hs _ m) fun _ _ hle _ => ih (mono hle hs) _ _
  exact bind (argPattern args) fun _ p hle _ => bind (hreplace (mono hle hs) p _ _ _) fun _ _ _ _ => pure_text _

lemma callTextMethod (hs : (A.kind w).All (Value.text s)) (m : TextMethod) (args : List Value) :
    A.AbreastTo n w (A.UpTo m.limited) (callTextMethod A.left call s m args)
      (callTextMethod A.right call' s m args) := by
  unfold ScriptM.callTextMethod
  cases m with
  | replace => exact replaceText hcall false hs args
  | replaceAll => exact replaceText hcall true hs args
  | concat => exact bind (mapM fun _ v _ _ => display v) fun _ _ _ _ => pure_text _
  | toUpperCase | toLowerCase => exact pure_text _
  | toString => exact upTo (pure hs) true
  | «at» =>
    refine upTo (bind (argNumber args 0) fun _ x _ _ => ?_) true
    cases itemAt s.toList.toArray x with
    | some c => exact pure (Kind.all_char c)
    | none => simp
  | charAt =>
    refine upTo (bind (argPosition args 0 _ 0) fun _ i _ _ => ?_) true
    cases s.toList[i]? with
    | some c => exact pure (Kind.all_char c)
    | none => exact pure (Kind.short _ (by decide))
  | charCodeAt =>
    refine upTo (bind (argPosition args 0 _ 0) fun _ i _ _ => ?_) true
    cases s.toList[i]? <;> simp
  | slice =>
    exact upTo (bind (argPosition args 0 _ _) fun _ _ hle _ => bind (argPosition args 1 _ _) fun _ _ hle' _ =>
      pure (Kind.all_slice (mono (A.le_trans hle hle') hs) _ _)) true
  | substring =>
    exact upTo (bind (argCount args 0 _ _) fun _ _ hle _ => bind (argCount args 1 _ _) fun _ _ hle' _ =>
      pure (Kind.all_slice (mono (A.le_trans hle hle') hs) _ _)) true
  | trim => exact upTo (pure (Kind.all_trim hs).1) true
  | trimStart => exact upTo (pure (Kind.all_trim hs).2.1) true
  | trimEnd => exact upTo (pure (Kind.all_trim hs).2.2) true
  | repeated => exact upTo (repeatText s args) true
  | padStart => exact upTo (padText true hs args) true
  | padEnd => exact upTo (padText false hs args) true
  | split => exact upTo (splitText hs args) true
  | matchPattern => exact upTo (bind (argPattern args) fun _ p hle _ => matchText p (mono hle hs)) true
  | indexOf | lastIndexOf =>
    refine upTo (bind (argText args 0) fun _ t _ _ => ?_) true
    unfold placeNumber
    split <;> simp
  | includes | startsWith | endsWith => exact upTo (by simp) true

end Calls

/-! Variables and properties. -/

lemma scopeValue (scope : Scope) (name : String) :
    A.Abreast n w (scopeValue A.left scope name : ScriptM ω Value)
      (scopeValue A.right scope name : ScriptM ω' Value) := by
  unfold ScriptM.scopeValue
  rw [A.scope_eq]
  refine bind heap fun w' h _ hh => ?_
  dsimp only
  cases hv : (h.object (A.left.scope scope)).get? name with
  | some v => exact pure (Kind.all_get? (Kind.all_object hh _) name v hv)
  | none =>
    dsimp only
    rcases A.strict_eq with he | ⟨hleft, hright⟩
    · rw [he]
      split
      · exact throw _
      · rename_i hlenient
        exact bind (warn _ (by simp_all)) fun _ _ _ _ => pure Kind.all_undefined
    · rw [hleft, hright]
      by_cases hconstants : (scope == .constants) = true
      · simp [hconstants]
      · rw [if_pos (by simp), if_neg (by simpa using hconstants)]
        -- the second evaluation warns and goes on
        have hsize (m' : Machine ω') (message : String) : (m'.warnings.push message).size = m'.warnings.size + 1 :=
          Array.size_push _
        refine ⟨fun m m' hr _ => .off ?_, fun _ m' hlax => ?_⟩
        · exact (hsize m' _).symm ▸ A.lax_of_warned (by simp [hleft, hright]) hr
        · exact (hsize m' _).symm ▸ A.lax_mono (Nat.le_succ _) hlax

@[simp] lemma derivedProperty (v : Value) (name : String) : A.Both n w (derivedProperty v name) := by
  unfold ScriptM.derivedProperty
  cases v with
  | pattern ref =>
    refine bind_heap fun _ h _ hh => ?_
    cases hp : h.pattern? ref with
    | none => simp
    | some p =>
      dsimp only
      split
      · exact pure (hh.pattern hp).1
      · exact pure (hh.pattern hp).2
      all_goals simp
  | function ref =>
    refine bind heap fun _ h _ _ => ?_
    rcases h.function? ref with _ | f
    · simp
    · cases f with
      | builtin b =>
        dsimp only
        cases Builtin.ofName? (b.name ++ "." ++ name) <;> simp
      | _ => simp
  | _ => simp

@[simp] lemma getProperty (target key : Value) : A.Both n w (getProperty target key) := by
  unfold ScriptM.getProperty
  cases target with
  | object ref =>
    refine bind (display key) fun _ name _ _ => bind heap fun _ h _ hh => ?_
    cases hv : (h.object ref).get? name with
    | some v => exact pure (Kind.all_get? (Kind.all_object hh ref) name v hv)
    | none => simp
  | array ref =>
    cases key.index? with
    | some i =>
      exact bind heap fun _ _ _ hh => pure (Kind.all_getD fun v hv => Kind.all_array hh ref v
        (Array.mem_of_getElem? hv).val)
    | none => simp
  | text s =>
    rcases key.index? with _ | i
    · simp
    · dsimp only
      cases s.toList[i]? with
      | some c => exact pure (Kind.all_char c)
      | none => simp
  | _ => simp

lemma setProperty (hwrites : A.Writes) (target key : Value) {v : Value} (hv : (A.kind w).All v) :
    A.Abreast n w (setProperty A.left target key v : ScriptM ω Unit)
      (setProperty A.right target key v : ScriptM ω' Unit) := by
  have hconst : A.right.constants = A.left.constants := A.scope_eq .constants
  unfold ScriptM.setProperty
  cases target with
  | object ref =>
    dsimp only
    rw [hconst]
    by_cases hr : ref = A.left.constants
    · simp [hr]
    · have hkeep : ¬ A.marked ref := fun hm => hr (A.marked_eq hm)
      have hne : ¬ (ref == A.left.constants) = true := by simpa using hr
      rw [if_neg hne, if_neg hne]
      exact bind (display key) fun _ name hle _ =>
        modifyObject hwrites hkeep fun _ _ hle' hb => Kind.all_insert hb name (mono (A.le_trans hle hle') hv)
  | array ref =>
    refine bind heap fun _ h hle _ => ?_
    dsimp only
    cases key.index? with
    | some i =>
      have hstore {w' : Machine ω'} (hle : A.le w w') :
          A.Both n w' (modifyHeap fun h => h.modifyArray ref fun items => storeAt items i v) :=
        modifyArray hwrites ref fun _ _ hle' hold => Kind.all_storeAt hold i (mono (A.le_trans hle hle') hv)
      exact ite (bind (checkIterations _) fun _ _ hle' _ => hstore (A.le_trans hle hle')) (hstore hle)
    | none =>
      refine bind (display key) fun _ name _ _ => ite ?_ (refuse _)
      cases v.index? with
      | none => exact refuse _
      | some k =>
        have hresize {w' : Machine ω'} :
          A.Both n w' (modifyHeap fun h => h.modifyArray ref fun items => resize items k) :=
          modifyArray hwrites ref fun _ _ _ hold => Kind.all_resize hold k
        exact ite (bind (checkIterations _) fun _ _ _ _ => hresize) hresize
  | _ => simp

end AbreastTo
end Accord
end Script
end StoryMarkup
