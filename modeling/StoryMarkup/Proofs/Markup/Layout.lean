import StoryMarkup.Markup.Parser
import StoryMarkup.Proofs.Bindings
import StoryMarkup.Proofs.Markup.Fragments

/-! How a parsed passage is laid out: each template behind those before it and around those in
it. -/
namespace StoryMarkup.Markup

open List

open Script (Scope ScriptError maxNesting)
open Text (Cursor isAscii isAsciiAlphanumeric isAsciiDigit isAsciiLetter isBlank trimChars)
variable {src : Source} {levels lo first : Nat} {done : List Template} {c : Char} {pending : Pending}
  {attrs : Bindings String} {dyn : Bindings ExprSource} {key : String} {lo' : Nat}

def isTagChar (c : Char) : Bool := (isAsciiAlphanumeric c || c == '-') && Text.lowerAscii c == c

def isTrimmed (s : String) : Bool := s.toList.head?.any (!isBlank ·) && s.toList.getLast?.any (!isBlank ·)

def Apart (attrs : Bindings String) (dyn : Bindings ExprSource) : Prop :=
  ∀ key, attrs.contains key = true → dyn.contains key = false

lemma Apart.insert_text (h : Apart attrs dyn) (hkey : dyn.contains key = false) (value : String) :
    Apart (attrs.insert key value) dyn := by
  intro other hother
  rw [Bindings.contains_insert] at hother
  grind [Apart]

lemma Apart.insert_expr (h : Apart attrs dyn) (hkey : attrs.contains key = false)
    (value : ExprSource) : Apart attrs (dyn.insert key value) := by
  intro other hother
  rw [Bindings.contains_insert]
  grind [Apart]

structure Opened (name : String) (attrs : Bindings String) (dyn : Bindings ExprSource) : Prop where
  allowed : bannedTags.contains name = false
  lower : name.toList.all isTagChar = true
  apart : Apart attrs dyn

mutual

/-- Templates, last one first, that were read one behind the other between two offsets, in a list
with so many levels left, its own included. -/
inductive Row (src : Source) : Nat → Nat → Nat → List Template → Prop
  | nil {levels lo hi : Nat} (h : lo ≤ hi) : Row src (levels + 1) lo hi []
  | text {levels lo start hi : Nat} {s : String} {done : List Template} (hdone : Row src (levels + 1) lo start done)
    (hapart : ∀ t ∈ done.head?, t.isText = false) (hs : s.isEmpty = false) (hhi : start ≤ hi) :
    Row src (levels + 1) lo hi (.text s (src.loc start) :: done)
  | node {levels lo mid stop hi : Nat} {t : Template} {done : List Template} (hdone : Row src (levels + 1) lo mid done)
    (h : Placed src levels mid stop t) (hhi : stop ≤ hi) : Row src (levels + 1) lo hi (t :: done)

/-- A template other than a text that was read between two offsets, with so many levels left for the
lists in it. -/
inductive Placed (src : Source) : Nat → Nat → Nat → Template → Prop
  | bare {levels lo hi : Nat} {name : String} {attrs : Bindings String} {dyn : Bindings ExprSource}
    (hopened : Opened name attrs dyn) (h : lo ≤ hi) :
    Placed src levels lo hi (.element name attrs dyn [] (src.loc lo))
  | raw {levels lo start hi : Nat} {name s : String} {attrs : Bindings String} {dyn : Bindings ExprSource}
    (hopened : Opened name attrs dyn) (hvoid : voidTags.contains name = false)
    (hraw : rawTags.contains name = true) (hlo : lo ≤ start) (hhi : start ≤ hi) :
    Placed src levels lo hi (.element name attrs dyn [.text s (src.loc start)] (src.loc lo))
  | element {levels lo mid hi : Nat} {name : String} {attrs : Bindings String} {dyn : Bindings ExprSource}
    {content : List Template} (hopened : Opened name attrs dyn) (hvoid : voidTags.contains name = false)
    (hraw : rawTags.contains name = false) (hlo : lo ≤ mid) (hcontent : Row src levels mid hi content.reverse) :
    Placed src levels lo hi (.element name attrs dyn content (src.loc lo))
  | reference {levels lo hi : Nat} {scope : Scope} {base : String} {accesses : List Access}
      {body : Option (List Template)}
    (hbody : Held src levels lo hi body) : Placed src levels lo hi (.reference scope base accesses body (src.loc lo))
  | chain {levels lo hi : Nat} {segs : List Segment} (hsome : segs ≠ [])
    (hsegments : Chained src levels lo hi segs.reverse) : Placed src levels lo hi (.chain segs (src.loc lo))
  | link {levels lo hi : Nat} {target label : String} (htarget : isTrimmed target = true)
      (hlabel : isTrimmed label = true)
    (h : lo ≤ hi) : Placed src levels lo hi (.link target label (src.loc lo))

inductive Held (src : Source) : Nat → Nat → Nat → Option (List Template) → Prop
  | none {levels lo hi : Nat} (h : lo ≤ hi) : Held src levels lo hi none
  | some {levels lo mid hi : Nat} {body : List Template} (hlo : lo ≤ mid) (hbody : Row src levels mid hi body.reverse) :
    Held src levels lo hi (some body)

/-- Segments, last one first, that were read one behind the other between two offsets. -/
inductive Chained (src : Source) : Nat → Nat → Nat → List Segment → Prop
  | nil {levels lo hi : Nat} (h : lo ≤ hi) : Chained src levels lo hi []
  | cons {levels lo mid start hi : Nat} {name : String} {args : Args} {body : Option (List Template)}
    {done : List Segment} (hdone : Chained src levels lo mid done) (hlo : mid ≤ start)
    (hbody : Held src levels start hi body) : Chained src levels lo hi (.mk name args body (src.loc start) :: done)

end

lemma Placed.isText {hi : Nat} {t : Template} (h : Placed src levels lo hi t) : t.isText = false := by
  cases h <;> rfl

lemma Row.mono {hi hi' : Nat} (h : Row src levels lo hi done) (hle : hi ≤ hi') : Row src levels lo hi' done := by
  cases h with
  | nil h => exact .nil (Nat.le_trans h hle)
  | text hdone hapart hs hhi => exact .text hdone hapart hs (Nat.le_trans hhi hle)
  | node hdone h hhi => exact .node hdone h (Nat.le_trans hhi hle)

lemma Held.mono {hi : Nat} {body : Option (List Template)} (h : Held src levels lo hi body)
    (hle : lo' ≤ lo) : Held src levels lo' hi body := by
  cases h with
  | none h => exact .none (Nat.le_trans hle h)
  | some hlo hbody => exact .some (Nat.le_trans hle hlo) hbody

/-! A passage that starts further down. -/

def Location.down (d : Nat) (loc : Location) : Location := { loc with line := loc.line + d }

def Source.down (d : Nat) (src : Source) : Source := { src with startLine := src.startLine + d }

def Warning.down (d : Nat) (w : Warning) : Warning := { w with loc := w.loc.down d }

def ParseError.down (d : Nat) (e : ParseError) : ParseError := { e with loc := e.loc.down d }

mutual

def Template.down (d : Nat) : Template → Template
  | .text s loc => .text s (loc.down d)
  | .element name attrs dyn content loc =>
    .element name attrs dyn (Template.downAll d content) (loc.down d)
  | .reference scope base accesses body loc => .reference scope base accesses (Template.downBody d body) (loc.down d)
  | .chain segs loc => .chain (Segment.downAll d segs) (loc.down d)
  | .link target label loc => .link target label (loc.down d)
  | .error message sample loc => .error message sample (loc.down d)

def Template.downAll (d : Nat) : List Template → List Template
  | [] => []
  | t :: rest => t.down d :: Template.downAll d rest

def Template.downBody (d : Nat) : Option (List Template) → Option (List Template)
  | none => none
  | some body => some (Template.downAll d body)

def Segment.down (d : Nat) : Segment → Segment
  | .mk name args body loc => .mk name args (Template.downBody d body) (loc.down d)

def Segment.downAll (d : Nat) : List Segment → List Segment
  | [] => []
  | s :: rest => s.down d :: Segment.downAll d rest

end

def Parsed.down (d : Nat) (parsed : Parsed) : Parsed :=
  ⟨Template.downAll d parsed.templates, parsed.warnings.map (Warning.down d)⟩

lemma Source.loc_down (d : Nat) (src : Source) (offset : Nat) : (src.down d).loc offset = (src.loc offset).down d := by
  simp only [Source.loc, Source.lineAt, Source.down, Location.down, Location.mk.injEq, true_and]
  omega

lemma Template.downAll_eq_map (d : Nat) (ts : List Template) : Template.downAll d ts = ts.map (Template.down d) := by
  induction ts with
  | nil => rw [Template.downAll, map_nil]
  | cons t ts ih => rw [Template.downAll, map_cons, ih]

lemma Template.downAll_reverse (d : Nat) (ts : List Template) :
    Template.downAll d ts.reverse = (Template.downAll d ts).reverse := by
  simp [Template.downAll_eq_map]

lemma Segment.downAll_eq_map (d : Nat) (xs : List Segment) : Segment.downAll d xs = xs.map (Segment.down d) := by
  induction xs with
  | nil => rw [Segment.downAll, map_nil]
  | cons x xs ih => rw [Segment.downAll, map_cons, ih]

lemma Segment.downAll_reverse (d : Nat) (xs : List Segment) :
    Segment.downAll d xs.reverse = (Segment.downAll d xs).reverse := by
  simp [Segment.downAll_eq_map]

/-! What the parser does, by the offsets where it starts and ends. -/

def Reading.Located (src : Source) (r : Reading) : Prop := ∀ w ∈ r.warnings, ∃ offset, w.loc = src.loc offset

def Reading.down (d : Nat) (r : Reading) : Reading := { r with warnings := r.warnings.map (Warning.down d) }

namespace Reader

variable {d : Nat} {α β : Type}

/-- Two outcomes that differ in their lines only. Either both are results with a property that may
name the offset where reading ends, or both are the same error. Errors and warnings name places in
the passage. -/
inductive Agree (src : Source) (d lo : Nat) (Q : Nat → α → α → Prop) :
    Except ParseError (α × Reading) → Except ParseError (α × Reading) → Prop
  | ok {a a' : α} {r : Reading} (hle : lo ≤ r.cursor.pos) (hr : r.Located src) (h : Q r.cursor.pos a a') :
    Agree src d lo Q (.ok (a, r)) (.ok (a', r.down d))
  | error {e : ParseError} (offset : Nat) (h : e.loc = src.loc offset) : Agree src d lo Q (.error e) (.error (e.down d))

/-- From an offset on the two readers go forward side by side, the second one further down. -/
def Runs (src : Source) (d lo : Nat) (Q : Nat → α → α → Prop) (x x' : Reader α) : Prop :=
  ∀ r, r.cursor.pos = lo → r.Located src → Agree src d lo Q (x r) (x' (r.down d))

abbrev Same : Nat → α → α → Prop := fun _ a a' => a = a'

abbrev Goes (src : Source) (d lo : Nat) (Q : Nat → α → α → Prop) (x : Source → Reader α) : Prop :=
  Runs src d lo Q (x src) (x (src.down d))

namespace Runs

variable {P : Nat → α → α → Prop} {Q : Nat → β → β → Prop}

lemma pure {a a' : α} (h : P lo a a') : Runs src d lo P (pure a) (pure a') :=
  fun _ hlo hr => .ok (Nat.le_of_eq hlo.symm) hr (hlo ▸ h)

lemma bind {x x' : Reader α} {f f' : α → Reader β} (hx : Runs src d lo P x x')
    (hf : ∀ mid a a', lo ≤ mid → P mid a a' →
      Runs src d mid Q (f a) (f' a')) : Runs src d lo Q (x >>= f) (x' >>= f') := by
  intro r hlo hr
  have hfirst := hx r hlo hr
  change Agree src d lo Q (Except.bind (x r) fun p => f p.1 p.2) (Except.bind (x' (r.down d)) fun p => f' p.1 p.2)
  generalize x r = first, x' (r.down d) = first' at hfirst
  cases hfirst with
  | error offset h => exact .error offset h
  | @ok a a' mid hle hmid h =>
    have hrest := hf mid.cursor.pos a a' hle h mid rfl hmid
    change Agree src d lo Q (f a mid) (f' a' (mid.down d))
    generalize f a mid = last, f' a' (mid.down d) = last' at hrest
    cases hrest with
    | error offset h => exact .error offset h
    | ok hle' hr h => exact .ok (Nat.le_trans hle hle') hr h

lemma next {x x' : Reader α} {f f' : α → Reader β} (hx : Runs src d lo Same x x')
    (hf : ∀ mid a, lo ≤ mid → Runs src d mid Q (f a) (f' a)) : Runs src d lo Q (x >>= f) (x' >>= f') :=
  .bind hx fun mid a _ hle h => h ▸ hf mid a hle

lemma imp {Q : Nat → α → α → Prop} {x x' : Reader α} (hx : Runs src d lo P x x')
    (h : ∀ hi a a', P hi a a' → Q hi a a') : Runs src d lo Q x x' := by
  intro r hlo hr
  have hrun := hx r hlo hr
  generalize x r = first, x' (r.down d) = first' at hrun
  cases hrun with
  | error offset h => exact .error offset h
  | ok hle hr ha => exact .ok hle hr (h _ _ _ ha)

lemma ite {c : Prop} [Decidable c] {x x' y y' : Reader α} (hx : Runs src d lo P x x')
    (hy : Runs src d lo P y y') : Runs src d lo P (if c then x else y) (if c then x' else y') := by
  split
  · exact hx
  · exact hy

lemma refuse (problem : Problem) (offset : Nat) : Goes src d lo P (Reader.refuse · problem offset) := by
  intro r _ _
  have h : Agree src d lo P _ _ := .error (α := α) offset
    (e := ⟨problem, src.loc offset, Text.sampleOf (Cursor.ofOffset src.text offset).rest⟩) rfl
  rw [ParseError.down, ← Source.loc_down] at h
  exact h

lemma script {e : Except ScriptError α} {fallback : Nat} : Goes src d lo Same (Reader.script · fallback e) := by
  cases e with
  | ok a => exact .pure rfl
  | error e => exact .refuse _ _

lemma warn (message : String) (offset : Nat) : Goes src d lo Same (Reader.warn · message offset) := by
  intro r hlo hr
  let warned : Reading := { r with warnings := r.warnings.push ⟨message, src.loc offset⟩ }
  have hwarned : warned.Located src := by
    intro w hw
    obtain hw | rfl := Array.mem_push.1 hw
    · exact hr w hw
    · exact ⟨offset, rfl⟩
  have h : Agree src d lo Same (.ok ((), warned)) (.ok ((), warned.down d)) := .ok (Nat.le_of_eq hlo.symm) hwarned rfl
  rw [Reading.down, Array.map_push, Warning.down, ← Source.loc_down] at h
  exact h

lemma drop (n : Nat) : Goes src d lo Same fun _ => drop n :=
  fun _ hlo hr => .ok (hlo ▸ Nat.le_add_right _ _) hr rfl

lemma seek (offset : Nat) : Goes src d lo Same fun _ => seek offset :=
  fun _ hlo hr => .ok (hlo ▸ Nat.le_add_right _ _) hr rfl

lemma takeWhile (p : Char → Bool) : Goes src d lo (fun _ run run' => run = run' ∧ run.all p = true)
    fun _ => takeWhile p :=
  fun _ hlo hr => .ok (hlo ▸ Nat.le_add_right _ _) hr ⟨rfl, all_takeWhile⟩

lemma run (p : Char → Bool) : Goes src d lo Same fun _ => Reader.takeWhile p :=
  (takeWhile p).imp fun _ _ _ h => h.1

lemma skipBlanks : Goes src d lo Same fun _ => skipBlanks := .next (.run _) fun _ _ _ => .pure rfl

lemma takeName : Goes src d lo Same fun _ => takeName := .next (.run _) fun _ _ _ => .pure rfl

/-! Looking at the text moves nothing. -/

lemma get_bind {f f' : Reading → Reader β} (h : ∀ r r', r.cursor.pos = lo → r'.cursor = r.cursor →
    r'.before = r.before → Runs src d lo Q (f r) (f' r')) : Runs src d lo Q (get >>= f) (get >>= f') :=
  fun r hlo hr => h r (r.down d) hlo rfl rfl r hlo hr

lemma pos_bind {f f' : Nat → Reader β} (h : Runs src d lo Q (f lo) (f' lo)) :
    Runs src d lo Q (pos >>= f) (pos >>= f') := by
  intro r hlo hr
  subst hlo
  exact h r rfl hr

lemma rest_bind {f f' : List Char → Reader β} (h : ∀ cs, Runs src d lo Q (f cs) (f' cs)) :
    Runs src d lo Q (rest >>= f) (rest >>= f') :=
  fun r hlo hr => h _ r hlo hr

lemma peek_bind {f f' : Option Char → Reader β} (h : ∀ c, Runs src d lo Q (f c) (f' c)) :
    Runs src d lo Q (peek? >>= f) (peek? >>= f') :=
  fun r hlo hr => h _ r hlo hr

lemma remaining_bind {f f' : Nat → Reader β} (h : ∀ n, Runs src d lo Q (f n) (f' n)) :
    Runs src d lo Q (remaining >>= f) (remaining >>= f') :=
  fun r hlo hr => h _ r hlo hr

lemma since_bind {start : Nat} {f f' : String → Reader β} (h : ∀ s, Runs src d lo Q (f s) (f' s)) :
    Runs src d lo Q (since src start >>= f) (since (src.down d) start >>= f') :=
  fun r hlo hr => h _ r hlo hr

end Runs

/-! The parts of tags, references and chains that hold no templates. -/

lemma runs_shorthands (element : String) (openAt : Nat) : ∀ fuel {lo} attrs classes,
    Goes src d lo Same (shorthands · element openAt fuel attrs classes) := by
  intro fuel
  induction fuel with
  | zero => exact fun _ _ => .pure rfl
  | succ fuel ih =>
    intro lo attrs classes
    refine .peek_bind fun c => ?_
    split
    · refine .next (.drop 1) fun _ _ _ => .next (.run _) fun _ id _ => ?_
      split
      · exact .refuse _ _
      · split
        · exact .next (.warn _ _) fun _ _ _ => ih _ _
        · exact ih _ _
    · refine .next (.drop 1) fun _ _ _ => .next (.run _) fun _ name _ => ?_
      split
      · exact .refuse _ _
      · exact ih _ _
    · exact .pure rfl

lemma runs_quoted (element : String) (start : Nat) (quote : Char) :
    let quoted (src : Source) : Reader (String ⊕ ExprSource) := do
      drop 1
      let inner ← takeWhile (· != quote)
      if (← peek?).isNone then refuse src (.openAttribute element) start
      else
        drop 1
        return .inl (String.ofList inner)
    Goes src d lo Same quoted := by
  refine .next (.drop 1) fun _ _ _ => .next (.run _) fun _ inner _ => .peek_bind fun _ => ?_
  split
  · exact .refuse _ _
  · exact .next (.drop 1) fun _ _ _ => .pure rfl

lemma runs_attributeValue (element : String) (start : Nat) : Goes src d lo Same (attributeValue · element start) := by
  refine .peek_bind fun c => ?_
  split
  · exact runs_quoted element start _
  · exact runs_quoted element start _
  · refine .pos_bind (.next .script fun _ f _ => ?_)
    split
    · exact .refuse _ _
    · split
      · exact .refuse _ _
      · exact .next (.seek _) fun _ _ _ => .pure rfl
  · refine .next (.run _) fun _ value _ => ?_
    split
    · exact .refuse _ _
    · exact .pure rfl

abbrev SameApart (_ : Nat) (found found' : Bindings String × Bindings ExprSource × Bool) : Prop :=
  found = found' ∧ Apart found.1 found.2.1

lemma runs_attributeList (element : String) (openAt : Nat) : ∀ fuel {lo} attrs dyn, Apart attrs dyn
    → Goes src d lo SameApart (attributeList · element openAt fuel attrs dyn) := by
  intro fuel
  induction fuel with
  | zero => exact fun _ _ h => .pure ⟨rfl, h⟩
  | succ fuel ih =>
    intro lo attrs dyn h
    refine .next .skipBlanks fun start _ _ => .pos_bind (.rest_bind fun cs => ?_)
    split
    · exact .refuse _ _
    · exact .next (.drop 1) fun _ _ _ => .pure ⟨rfl, h⟩
    · exact .next (.drop 2) fun _ _ _ => .pure ⟨rfl, h⟩
    · refine .next (.run _) fun _ key _ => ?_
      dsimp only
      generalize String.ofList key = key
      -- a key that was there before adds nothing
      have hnew {lo : Nat} {next next' : Reader (Bindings String × Bindings ExprSource × Bool)}
          (hnext : attrs.contains key = false → dyn.contains key = false → Runs src d lo SameApart
          next next') : Runs src d lo SameApart
            (if attrs.contains key || dyn.contains key then do
              warn src ("duplicate attribute '" ++ key ++ "' on <" ++ element ++ ">") start
              attributeList src element openAt fuel attrs dyn
            else next)
            (if attrs.contains key || dyn.contains key then do
              warn (src.down d) ("duplicate attribute '" ++ key ++ "' on <" ++ element ++ ">") start
              attributeList (src.down d) element openAt fuel attrs dyn
            else next') := by
        split
        · exact .next (.warn _ _) fun _ _ _ => ih _ _ h
        · rename_i hnone
          simp only [Bool.or_eq_true, not_or, Bool.not_eq_true] at hnone
          exact hnext hnone.1 hnone.2
      split
      · exact .refuse _ _
      · refine .peek_bind fun c => ?_
        split
        · refine .next (.drop 1) fun _ _ _ => .next (runs_attributeValue element start) fun _ value _ => ?_
          refine hnew fun hattributes hdyn => ?_
          cases value with
          | inl s => exact ih _ _ (h.insert_text hdyn s)
          | inr e => exact ih _ _ (h.insert_expr hattributes e)
        · refine .bind (.pure (P := fun _ value value' => value = .inl "" ∧ value' = .inl "")
            ⟨rfl, rfl⟩) fun _ _ _ _ heq => ?_
          rw [heq.1, heq.2]
          exact hnew fun _ hdyn => ih _ _ (h.insert_text hdyn "")

lemma runs_accessList : ∀ fuel {lo} done, Goes src d lo Same (accessList · fuel done) := by
  intro fuel
  induction fuel with
  | zero => exact fun _ => .pure rfl
  | succ fuel ih =>
    intro lo done
    refine .pos_bind (.rest_bind fun cs => ?_)
    split
    · split
      · refine .next (.drop 1) fun _ _ _ => .next (.run _) fun _ name _ => ?_
        exact ih _
      · exact .pure rfl
    · exact .pure rfl
    · refine .next .script fun _ found _ => ?_
      dsimp only
      split
      · exact .refuse _ _
      · exact .next (.seek _) fun _ _ _ => ih _
    · refine .next .script fun _ found _ => ?_
      exact .next (.seek _) fun _ _ _ => .since_bind fun _ => ih _
    · exact .pure rfl

lemma runs_iterationArgs (name : String) : Goes src d lo Same (iterationArgs · name) := by
  refine .pos_bind (.next (.drop 1) fun _ _ _ => .next .skipBlanks fun _ _ _ => .rest_bind fun cs => ?_)
  split
  · split
    · refine .next (.drop 1) fun _ _ _ => .next .takeName fun _ binding _ => ?_
      refine .next .skipBlanks fun _ _ _ => .rest_bind fun cs' => ?_
      split
      · split
        · exact .refuse _ _
        · refine .next (.drop 2) fun _ _ _ => .pos_bind (.next .script fun _ f _ => ?_)
          split
          · exact .refuse _ _
          · split
            · exact .refuse _ _
            · exact .next (.seek _) fun _ _ _ => .pure rfl
      · exact .refuse _ _
    · exact .refuse _ _
  · exact .refuse _ _

/-! Templates. -/

lemma isAscii_of_isAsciiLetter (h : isAsciiLetter c = true) : isAscii c = true := by
  simp only [isAsciiLetter, isAscii, Char.toNat, Bool.or_eq_true, Bool.and_eq_true,
    decide_eq_true_eq, Char.le_def, UInt32.le_iff_toNat_le] at h ⊢
  simp only [Char.reduceVal, UInt32.reduceToNat] at h
  omega

lemma isAscii_of_isAsciiDigit (h : isAsciiDigit c = true) : isAscii c = true := by
  simp only [isAsciiDigit, isAscii, Char.toNat, Bool.and_eq_true, decide_eq_true_eq, Char.le_def,
    UInt32.le_iff_toNat_le] at h ⊢
  simp only [Char.reduceVal, UInt32.reduceToNat] at h
  omega

lemma toNat_lt_of_isAsciiAlphanumeric (h : (isAsciiAlphanumeric c || c == '-') = true) : c.toNat < 128 := by
  simp only [isAsciiAlphanumeric, Bool.or_eq_true, beq_iff_eq] at h
  obtain (h | h) | rfl := h
  · exact of_decide_eq_true (isAscii_of_isAsciiLetter h)
  · exact of_decide_eq_true (isAscii_of_isAsciiDigit h)
  · decide

lemma isTagChar_lowerAscii (h : (isAsciiAlphanumeric c || c == '-') = true) :
    isTagChar (Text.lowerAscii c) = true := by
  have hall : ∀ n < 128, (isAsciiAlphanumeric (Char.ofNat n) || Char.ofNat n == '-') = true →
      isTagChar (Text.lowerAscii (Char.ofNat n)) = true := by decide
  have hlt := toNat_lt_of_isAsciiAlphanumeric h
  rw [← Char.ofNat_toNat c] at h ⊢
  exact hall _ hlt h

lemma isTrimmed_trimChars {cs : List Char} (h : (trimChars cs).isEmpty = false) :
    isTrimmed (String.ofList (trimChars cs)) = true := by
  have hne : trimChars cs ≠ [] := by simpa using h
  obtain ⟨first, hfirst⟩ := Option.isSome_iff_exists.1 (isSome_head?.2 hne)
  obtain ⟨last, hlast⟩ := Option.isSome_iff_exists.1 (getLast?_isSome.2 hne)
  -- what is left starts as the text without its leading blanks does
  obtain ⟨after, hafter⟩ : trimChars cs <+: cs.dropWhile isBlank := by
    rw [← reverse_suffix, trimChars, Text.dropBlankEnd, reverse_reverse]
    exact dropWhile_suffix _
  have hstart : first ∈ (cs.dropWhile isBlank).head? := by simp [← hafter, hfirst]
  have hend : last ∈ ((cs.dropWhile isBlank).reverse.dropWhile isBlank).head? := by
    rwa [trimChars, Text.dropBlankEnd, getLast?_reverse] at hlast
  simp [isTrimmed, hfirst, hlast, Text.head?_dropWhile cs first hstart, Text.head?_dropWhile _ last hend]

abbrev Gained (src : Source) (d levels lo : Nat) : Nat → Template → Template → Prop :=
  fun hi t t' => t' = t.down d ∧ Placed src levels lo hi t

abbrev GainedAll (src : Source) (d levels lo : Nat) : Nat → List Template → List Template → Prop :=
  fun hi ts ts' => ts' = Template.downAll d ts ∧ Row src levels lo hi ts.reverse

abbrev GainedSegment (src : Source) (d levels lo : Nat) : Nat → Segment → Segment → Prop :=
  fun hi s s' => s' = s.down d ∧ s.loc = src.loc lo ∧ Held src levels lo hi s.body

abbrev GainedChain (src : Source) (d levels lo : Nat) : Nat → List Segment → List Segment → Prop :=
  fun hi segs segments' => segments' = Segment.downAll d segs ∧ segs ≠ [] ∧
    Chained src levels lo hi segs.reverse

lemma isTrimmed_of_linkParts {inner : List Char} {label target : String}
    (h : linkParts? inner = some (label, target)) :
    isTrimmed label = true ∧ isTrimmed target = true := by
  simp only [linkParts?] at h
  split at h
  · cases h
  · split at h
    · cases h
    · rename_i hsome
      simp only [Bool.or_eq_true, not_or, Bool.not_eq_true] at hsome
      cases h
      exact ⟨isTrimmed_trimChars hsome.1, isTrimmed_trimChars hsome.2⟩

lemma runs_link (levels : Nat) : Goes src d lo (Gained src d levels lo) link := by
  refine .pos_bind (.rest_bind fun cs => ?_)
  dsimp only
  split
  · exact .refuse _ _
  · split
    · exact .refuse _ _
    · rename_i label target hparts
      obtain ⟨hlabel, htarget⟩ := isTrimmed_of_linkParts hparts
      refine .next (.drop _) fun hi _ hle => .pure ⟨?_, .link htarget hlabel hle⟩
      rw [Template.down, Source.loc_down]

section Nested

variable {nested : Source → Until → Reader (List Template)}
  (hnested : ∀ {lo} stop, Goes src d lo (GainedAll src d levels lo) (nested · stop))
include hnested

lemma runs_element : Goes src d lo (Gained src d levels lo) fun src => element src (nested src) := by
  refine .pos_bind (.next (.drop 1) fun after _ hafter => .bind (.takeWhile _) fun mid run _ hmid ⟨h, hrun⟩ => ?_)
  subst h
  dsimp only
  have hlower : (String.ofList (run.map Text.lowerAscii)).toList.all isTagChar = true := by
    rw [String.toList_ofList, all_map, all_eq_true]
    exact fun c hc => isTagChar_lowerAscii (all_eq_true.1 hrun c hc)
  generalize String.ofList (run.map Text.lowerAscii) = name at hlower
  split
  · exact .refuse _ _
  · rename_i hallowed
    refine .remaining_bind fun _ => .bind (runs_shorthands _ _ _ _ _) fun mid' found _ hmid' h => ?_
    subst h
    obtain ⟨ids, classes⟩ := found
    have hempty (start : Bindings String) : Apart start .empty := fun _ _ => rfl
    refine .remaining_bind fun _ => .bind (runs_attributeList _ _ _ _ _ (hempty _)) fun start found
      _ hstart ⟨h, hapart⟩ => ?_
    subst h
    obtain ⟨attrs, dyn, closed⟩ := found
    have hopened : Opened name attrs dyn := ⟨by simpa using hallowed, hlower, hapart⟩
    have hle : lo ≤ start := by omega
    -- the element is closed around its content
    have hclose {mid : Nat} {x x' : Reader (List Template)} (h : Runs src d mid (fun hi content content' =>
        content' = Template.downAll d content ∧ Placed src levels lo hi (.element name attrs dyn content (src.loc lo)))
        x x') : Runs src d mid (Gained src d levels lo)
          (do return .element name attrs dyn (← x) (src.loc lo))
          (do return .element name attrs dyn (← x') ((src.down d).loc lo)) := by
      refine .bind h fun hi content _ _ ⟨h, hplaced⟩ => .pure ⟨?_, hplaced⟩
      rw [h, Template.down, Source.loc_down]
    dsimp only
    split
    · exact hclose (.pure ⟨by rw [Template.downAll], .bare hopened hle⟩)
    · rename_i hvoid
      simp only [Bool.or_eq_true, not_or, Bool.not_eq_true] at hvoid
      split
      · rename_i hraw
        refine .pos_bind (.rest_bind fun cs => ?_)
        split
        · exact hclose (.refuse _ _)
        · refine .next (.drop _) fun hi _ hhi => hclose (.pure ⟨?_, .raw hopened hvoid.2 hraw hle hhi⟩)
          rw [Template.downAll, Template.downAll, Template.down, Source.loc_down]
      · rename_i hraw
        exact hclose ((hnested _).imp fun hi content content' h =>
          ⟨h.1, .element hopened hvoid.2 (by simpa using hraw) hle h.2⟩)

lemma runs_optionalBody (allowSpace : Bool) :
    Goes src d lo (fun hi body body' => body' = Template.downBody d body ∧ Held src levels lo hi body) fun src =>
      optionalBody (nested src) allowSpace := by
  refine .rest_bind fun cs => ?_
  dsimp only
  generalize (if allowSpace = true then (cs.takeWhile fun c => c == ' ' || c == '\t').length else 0) = blanks
  split
  · refine .next (.drop _) fun openAt _ hopen => .pos_bind (.next (.drop 1) fun mid _ hmid =>
      .bind (hnested _) fun hi body _ hhi ⟨h, hbody⟩ => .pure ⟨?_, .some (Nat.le_trans hopen hmid) hbody⟩)
    rw [h, Template.downBody]
  · exact .pure ⟨by rw [Template.downBody], .none le_rfl⟩

lemma runs_segment (name : String) (iteration : Bool) {start : Nat} (hstart : start ≤ lo) :
    Goes src d lo (GainedSegment src d levels start) fun src => segment src (nested src) name iteration start := by
  have hbody {mid : Nat} (hmid : start ≤ mid) {x x' : Reader Args} (hx : Runs src d mid Same x x') :
      Runs src d mid (GainedSegment src d levels start)
        (do return Segment.mk name (← x) (← optionalBody (nested src) true) (src.loc start))
        (do return Segment.mk name (← x') (← optionalBody (nested (src.down d)) true) ((src.down d).loc start)) := by
    refine .next hx fun at' args hat => .bind (runs_optionalBody hnested true) fun hi body _ hhi ⟨h, hheld⟩ => ?_
    subst h
    refine .pure ⟨?_, rfl, hheld.mono (Nat.le_trans hmid hat)⟩
    rw [Segment.down, Source.loc_down]
  refine .peek_bind fun c => ?_
  split
  · split
    · exact hbody hstart (.refuse _ _)
    · exact hbody hstart (.pure rfl)
  · split
    · exact hbody hstart (runs_iterationArgs name)
    · refine .pos_bind (.next .script fun mid found hmid => ?_)
      exact .bind (.seek _) fun mid' _ _ hmid' _ => hbody (by omega) (.pure rfl)

lemma runs_siblingSegments (siblings : List String) {start : Nat} : ∀ fuel {lo} done, done ≠ [] →
    Chained src levels start lo done →
    Runs src d lo (GainedChain src d levels start)
      (siblingSegments src (nested src) siblings fuel done)
      (siblingSegments (src.down d) (nested (src.down d)) siblings fuel (Segment.downAll d done)) := by
  have hend {lo : Nat} {done : List Segment} (hsome : done ≠ [])
      (hdone : Chained src levels start lo done) : Runs src d lo (GainedChain src d levels start)
        (pure done.reverse) (pure (Segment.downAll d done).reverse) := by
    refine .pure ⟨(Segment.downAll_reverse d done).symm, by simpa using hsome, ?_⟩
    rwa [reverse_reverse]
  intro fuel
  induction fuel with
  | zero => exact fun done hsome hdone => hend hsome hdone
  | succ fuel ih =>
    intro lo done hsome hdone
    refine .rest_bind fun cs => ?_
    dsimp only
    split
    · exact hend hsome hdone
    · refine .next (.drop _) fun mid _ hmid => .pos_bind (.bind (.drop _) fun mid' _ _ hmid' _ =>
        .bind (runs_segment hnested _ _ hmid') fun hi s _ hhi ⟨h, hloc, hheld⟩ => ?_)
      subst h
      have hcons : s.down d :: Segment.downAll d done = Segment.downAll d (s :: done) := by rw [Segment.downAll]
      rw [hcons]
      refine ih _ (cons_ne_nil _ _) ?_
      obtain ⟨name, args, body, loc⟩ := s
      cases hloc
      exact .cons hdone hmid hheld

lemma runs_chain (name : String) (shape : Shape) {start : Nat} (hstart : start ≤ lo) :
    Goes src d lo (Gained src d levels start) fun src => chain src (nested src) name shape start := by
  have hclose {mid : Nat} {x x' : Reader (List Segment)} (h : Runs src d mid (GainedChain src d levels start) x x') :
      Runs src d mid (Gained src d levels start) (do return .chain (← x) (src.loc start))
        (do return .chain (← x') ((src.down d).loc start)) := by
    refine .bind h fun hi segs _ _ ⟨h, hsome, hchained⟩ => .pure ⟨?_, .chain hsome hchained⟩
    rw [h, Template.down, Source.loc_down]
  refine .bind (runs_segment hnested _ _ hstart) fun hi head _ hhi ⟨h, hloc, hheld⟩ => ?_
  subst h
  have hhead : Chained src levels start hi [head] := by
    obtain ⟨name, args, body, loc⟩ := head
    cases hloc
    exact .cons (.nil le_rfl) le_rfl hheld
  have hdown : [head.down d] = Segment.downAll d [head] := by rw [Segment.downAll, Segment.downAll]
  rw [hdown]
  split
  · exact .remaining_bind fun _ => hclose (runs_siblingSegments hnested _ _ _ (cons_ne_nil _ _) hhead)
  · exact hclose (.pure ⟨rfl, cons_ne_nil _ _, hhead⟩)

lemma runs_reference (sigil : Char) :
    Goes src d lo (Gained src d levels lo) fun src => reference src (nested src) sigil := by
  have hplain {mid : Nat} (hmid : lo ≤ mid) (scope : Scope) (base : String) :
      Goes src d mid (Gained src d levels lo) fun src => do
        let accesses ← accessList src (← remaining) []
        let body ← optionalBody (nested src) (scope == .constants)
        return .reference scope base accesses body (src.loc lo) := by
    refine .remaining_bind fun _ => .next (runs_accessList _ _) fun mid' accesses hmid' =>
      .bind (runs_optionalBody hnested _) fun hi body _ hhi ⟨h, hheld⟩ => ?_
    subst h
    refine .pure ⟨?_, .reference (hheld.mono (by omega))⟩
    rw [Template.down, Source.loc_down]
  refine .pos_bind (.next (.drop 1) fun mid _ hmid => .bind .takeName fun mid' base _ hmid' h => ?_)
  subst h
  have hle : lo ≤ mid' := Nat.le_trans hmid hmid'
  dsimp only [Source.down]
  split
  case' h_1 => split
  · exact runs_chain hnested _ _ hle
  -- what is no chain is read the same whether its shape is known or not
  all_goals exact hplain hle _ _

omit hnested in
/-- Text is pending since an offset behind the templates that were read, and the last of these is no
text. -/
def Waits (src : Source) (levels first lo : Nat) (done : List Template) (pending : Pending) : Prop :=
  (∀ t ∈ done.head?, t.isText = false) ∧ match pending with
    | none => Row src (levels + 1) first lo done
    | some (start, _) => Row src (levels + 1) first start done ∧ start ≤ lo

omit hnested in
lemma Waits.mono (h : Waits src levels first lo done pending) (hle : lo ≤ lo') :
    Waits src levels first lo' done pending := by
  obtain ⟨hhead, h⟩ := h
  cases pending with
  | none => exact ⟨hhead, h.mono hle⟩
  | some _ => exact ⟨hhead, h.1, Nat.le_trans h.2 hle⟩

omit hnested in
lemma Waits.push (h : Waits src levels first lo done pending) (cs : List Char) :
    Waits src levels first lo done (if cs.isEmpty then pending else pending.push lo cs) := by
  split
  · exact h
  · obtain ⟨hhead, h⟩ := h
    cases pending with
    | none => exact ⟨hhead, h, le_rfl⟩
    | some _ => exact ⟨hhead, h⟩

omit hnested in
lemma Waits.flush (h : Waits src levels first lo done pending) :
    Row src (levels + 1) first lo (flush src pending done) := by
  obtain ⟨hhead, h⟩ := h
  cases pending with
  | none => exact h
  | some text =>
    obtain ⟨start, cs⟩ := text
    simp only [Reader.flush]
    split
    · exact h.1.mono h.2
    · exact .text h.1 hhead (by simpa using ‹¬cs.isEmpty = true›) h.2

omit hnested in
lemma flush_down (pending : Pending) (done : List Template) :
    flush (src.down d) pending (Template.downAll d done) = Template.downAll d (flush src pending done) := by
  cases pending with
  | none => rfl
  | some text =>
    simp only [flush]
    split
    · rfl
    · rw [Template.downAll, Template.down, Source.loc_down]

lemma runs_sequence (stop : Until) : ∀ fuel {lo} done pending, Waits src levels first lo done
    pending → Runs src d lo (GainedAll src d (levels + 1) first)
      (sequence src (nested src) stop fuel done pending)
      (sequence (src.down d) (nested (src.down d)) stop fuel (Template.downAll d done) pending) := by
  have hend {lo : Nat} {done : List Template} {pending : Pending} (h : Waits src levels first lo done pending) :
      Runs src d lo (GainedAll src d (levels + 1) first)
        (pure (flush src pending done).reverse)
          (pure (flush (src.down d) pending (Template.downAll d done)).reverse) := by
    refine .pure ⟨?_, ?_⟩
    · rw [flush_down, Template.downAll_reverse]
    · rw [reverse_reverse]
      exact h.flush
  intro fuel
  induction fuel with
  | zero => exact fun done pending h => hend h
  | succ fuel ih =>
    intro lo done pending h
    have hfinish (length : Nat) : Runs src d lo
        (GainedAll src d (levels + 1) first)
        (do
          drop length
          return (flush src pending done).reverse)
        (do
          drop length
          return (flush (src.down d) pending (Template.downAll d done)).reverse) :=
      .next (.drop _) fun _ _ hle => hend (h.mono hle)
    have hnode {x x' : Reader Template} (hx : Runs src d lo (Gained src d levels lo) x x') :
        Runs src d lo (GainedAll src d (levels + 1) first)
        (do
          let t ← x
          sequence src (nested src) stop fuel (t :: flush src pending done) none)
        (do
          let t ← x'
          sequence (src.down d) (nested (src.down d)) stop fuel (t :: flush (src.down d) pending
            (Template.downAll d done)) none) := by
      refine .bind hx fun hi t _ _ ⟨heq, ht⟩ => ?_
      have hcons : t.down d :: flush (src.down d) pending (Template.downAll d done) =
          Template.downAll d (t :: flush src pending done) := by rw [flush_down, Template.downAll]
      rw [heq, hcons]
      refine ih _ _ ⟨fun u hu => ?_, .node h.flush ht le_rfl⟩
      cases hu
      exact ht.isText
    have hplain (length : Nat) (cs : List Char) : Runs src d lo
        (GainedAll src d (levels + 1) first)
        (do
          drop length
          sequence src (nested src) stop fuel done (if cs.isEmpty then pending else pending.push lo cs))
        (do
          drop length
          sequence (src.down d) (nested (src.down d)) stop fuel (Template.downAll d done)
            (if cs.isEmpty then pending else pending.push lo cs)) :=
      .next (.drop _) fun _ _ hle => ih _ _ ((h.push cs).mono hle)
    refine .get_bind fun r r' hr hcursor hbefore => ?_
    subst hr
    dsimp only
    rw [hcursor, hbefore]
    split
    · cases stop with
      | finish => exact hfinish 0
      | brace openAt | closeTag name openAt => exact .refuse _ _
    · rename_i c more hrest
      split
      · exact hfinish _
      · -- what the next characters start
        refine .ite (.ite (hnode (runs_element hnested)) (hplain 1 ['<']))
          (.ite ?_ (.ite (hnode (runs_reference hnested _))
          (.ite (hnode (runs_link levels)) (.ite ?_ (.ite (hplain _ []) (hplain _ _))))))
        · split
          · exact .refuse _ _
          · exact hplain _ _
        · split
          · exact hplain _ []
          · exact .refuse _ _

end Nested

lemma runs_templates : ∀ levels {lo} stop, Goes src d lo (GainedAll src d levels lo) (templates · levels stop)
  | 0, _, _ => .refuse _ _
  | levels + 1, lo, stop => by
    have hnil : Template.downAll d [] = [] := by rw [Template.downAll]
    have hstart : Waits src levels lo lo [] none := ⟨by simp, .nil le_rfl⟩
    refine .remaining_bind fun n => ?_
    have h := runs_sequence (runs_templates levels) stop n [] none hstart
    rwa [hnil] at h

lemma agree_templates (src : Source) (d : Nat) :
    Agree src d 0 (GainedAll src d maxNesting 0)
      ((templates src maxNesting .finish).run { cursor := Cursor.ofList src.text })
      ((templates (src.down d) maxNesting .finish).run { cursor := Cursor.ofList (src.down d).text }) := by
  have hstart : Reading.down d { cursor := Cursor.ofList src.text } =
    { cursor := Cursor.ofList (src.down d).text } := by
    simp [Reading.down, Source.down]
  rw [← hstart]
  exact runs_templates maxNesting .finish { cursor := Cursor.ofList src.text } rfl fun _ hw => nomatch hw

end Reader

structure Parsed.IsLaidOut (src : Source) (parsed : Parsed) : Prop where
  row : ∃ hi, Row src maxNesting 0 hi parsed.templates.reverse
  warnings : ∀ w ∈ parsed.warnings, ∃ offset, w.loc = src.loc offset

lemma isLaidOut_of_parse {parsed : Parsed} (hparse : src.parse = .ok parsed) : parsed.IsLaidOut src := by
  have h := Reader.agree_templates src 0
  rw [Source.parse] at hparse
  generalize (Reader.templates src maxNesting .finish).run _ = first,
    (Reader.templates (src.down 0) maxNesting .finish).run _ = second at h hparse
  cases h with
  | error => cases hparse
  | ok _ hr h =>
    cases hparse
    exact ⟨⟨_, h.2⟩, fun w hw => hr w (Array.mem_toList_iff.1 hw)⟩

lemma exists_loc_of_parse {e : ParseError} (hparse : src.parse = .error e) : ∃ offset, e.loc = src.loc offset := by
  have h := Reader.agree_templates src 0
  rw [Source.parse] at hparse
  generalize (Reader.templates src maxNesting .finish).run _ = first,
    (Reader.templates (src.down 0) maxNesting .finish).run _ = second at h hparse
  cases h with
  | error offset h =>
    cases hparse
    exact ⟨offset, h⟩
  | ok => cases hparse

lemma parse_down (src : Source) (d : Nat) : (src.down d).parse = match src.parse with
    | .ok parsed => .ok (parsed.down d)
    | .error e => .error (e.down d) := by
  have h := Reader.agree_templates src d
  rw [Source.parse, Source.parse]
  generalize (Reader.templates src maxNesting .finish).run _ = first,
    (Reader.templates (src.down d) maxNesting .finish).run _ = second at h
  cases h with
  | error => rfl
  | @ok ts ts' r _ _ h =>
    obtain ⟨rfl, -⟩ := h
    change Except.ok (Parsed.mk _ (r.warnings.map (Warning.down d)).toList) = _
    rw [Array.toList_map]
    rfl

end StoryMarkup.Markup
