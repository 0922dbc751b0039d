import StoryMarkup.Proofs.Markup.Joining

/-! Expressions in a passage, each read from a phrase before a comma or the bracket that closes
it. -/
namespace StoryMarkup.Markup

open Script Text
variable {close : Bracket} {pre rest : List Char}

structure ExprSource.IsOf (expr : ExprSource) (y : Phrase) (c : Char) : Prop where
  valid : ∀ f, y.Valid true (c :: f)
  nested : y.Nested false []
  depth : y.depth ≤ maxNesting
  code : expr.code.toList = trimChars (y.written none true).text
  raw : expr.raw.toList = trimChars y.text

def Stop.sign (close : Bracket) : Stop → Char
  | .comma => ','
  | .close => close.closeChar

lemma Stop.divides_sign (close : Bracket) (stop : Stop) : Divides (stop.sign close) := by
  cases stop with
  | comma => exact divides_comma
  | close => exact divides_closeChar close

lemma Meets.eq_sign {n : Nat} {stop : Stop} {f : List Char} (h : Meets n f (.bracket close) stop) :
    ∃ g, f = stop.sign close :: g := by
  cases h with
  | comma h | close h => exact ⟨_, h⟩

lemma exists_phrase_of_fragment {f : Fragment} (h : fragment (pre ++ rest) (byteLength pre) close = .ok f) :
    ∃ y g, rest = y.text ++ f.stop.sign close :: g ∧ f.stopAt = byteLength (pre ++ y.text) ∧
      f.expr.IsOf y (f.stop.sign close) := by
  obtain ⟨w, hw, rfl⟩ : ∃ w, write (pre ++ rest) writeLevels (byteLength pre) (.bracket close) = .ok w ∧
      ⟨⟨String.ofList (trimChars w.code), String.ofList
        (trimChars ((Cursor.ofOffset (pre ++ rest) (byteLength pre)).upTo w.stopAt))⟩,
        w.stopAt, w.stop⟩ = f := by
    cases hw : write (pre ++ rest) writeLevels (byteLength pre) (.bracket close) with
    | error e => simp [fragment, hw, bind, Except.bind] at h
    | ok w =>
      simp only [fragment, hw] at h
      cases h
      exact ⟨w, rfl, rfl⟩
  obtain ⟨y, f, rfl, hvalid, hdepth, hstop, hmeets, -, hcode, hnested⟩ := exists_phrase_of_write pre rfl hw nofun
  obtain ⟨g, rfl⟩ := hmeets.eq_sign
  have hdivides := w.stop.divides_sign close
  refine ⟨y, g, rfl, by rw [byteLength_append, ← hstop], fun f => ?_, hnested, hdepth, by simp [hcode], ?_⟩
  · exact hvalid.of_follow (.head hdivides.telling hdivides.telling hdivides.slash id) rfl
  · rw [hstop, Cursor.ofOffset_append, Cursor.upTo_append, String.toList_ofList]

/-! Several expressions. -/

def separated : Phrase → List Phrase → Phrase
  | y, [] => y
  | y, z :: ys => y.append (.word .comma [','] (separated z ys))

inductive ExprSource.AreOf (close : Bracket) : Phrase → List Phrase → List ExprSource → Prop
  | last {y : Phrase} {expr : ExprSource} (h : expr.IsOf y close.closeChar) (hcode : expr.code.isEmpty = false) :
    AreOf close y [] [expr]
  | none {y : Phrase} {expr : ExprSource} (h : expr.IsOf y close.closeChar) (hcode : expr.code.isEmpty = true) :
    AreOf close y [] []
  | more {y z : Phrase} {ys : List Phrase} {expr : ExprSource} {exprs : List ExprSource} (h : expr.IsOf y ',')
    (hcode : expr.code.isEmpty = false) (hmore : AreOf close z ys exprs) : AreOf close y (z :: ys) (expr :: exprs)

lemma exists_phrases_of_fragmentsFrom {fuel stop : Nat} {done all : List ExprSource} (hfuel : rest.length < fuel)
    (h : fragmentsFrom (pre ++ rest) close fuel done (byteLength pre) = .ok (all, stop)) :
    ∃ y ys exprs g, all = done.reverse ++ exprs ∧ ExprSource.AreOf close y ys exprs ∧
      rest = (separated y ys).text ++ close.closeChar :: g ∧ stop = byteLength (pre ++ (separated y ys).text) := by
  induction fuel generalizing pre rest done with
  | zero => omega
  | succ fuel ih =>
    cases hf : fragment (pre ++ rest) (byteLength pre) close with
    | error e => simp [fragmentsFrom, hf, bind, Except.bind] at h
    | ok f =>
      obtain ⟨y, g, rfl, hstop, hexpr⟩ := exists_phrase_of_fragment hf
      simp only [fragmentsFrom, hf, bind, Except.bind] at h
      cases hkind : f.stop with
      | comma =>
        simp only [hkind, Stop.sign] at h hexpr ih hfuel ⊢
        split at h
        · cases h
        · rename_i hcode
          have hnext : byteLength (pre ++ (y.text ++ [','])) = f.stopAt + 1 := by
            rw [hstop, ← List.append_assoc, byteLength_append _ [',']]
            rfl
          have hsource : pre ++ (y.text ++ ',' :: g) = pre ++ (y.text ++ [',']) ++ g := by simp
          rw [hsource, ← hnext] at h
          obtain ⟨z, ys, exprs, g', hall, hmore, hrest, hend⟩ := ih (by simp at hfuel; omega) h
          refine ⟨y, z :: ys, f.expr :: exprs, g', ?_, .more hexpr (by simpa using hcode) hmore, ?_, ?_⟩
          · simp [hall]
          · simp [separated, Phrase.text, hrest]
          · simp [separated, Phrase.text, hend]
      | close =>
        simp only [hkind, Stop.sign] at h hexpr ⊢
        split at h
        · rename_i hcode
          cases h
          exact ⟨y, [], [], g, by simp, .none hexpr hcode, by simp [separated],
            by simp [separated, hstop]⟩
        · rename_i hcode
          cases h
          exact ⟨y, [], [f.expr], g, by simp, .last hexpr (by simpa using hcode), by simp [separated],
            by simp [separated, hstop]⟩

lemma exists_phrases_of_fragments {stop : Nat} {exprs : List ExprSource}
    (h : fragments (pre ++ rest) (byteLength pre) close = .ok (exprs, stop)) :
    ∃ y ys g, ExprSource.AreOf close y ys exprs ∧ rest = (separated y ys).text ++
      close.closeChar :: g ∧ stop = byteLength (pre ++ (separated y ys).text) := by
  have hfuel : rest.length < (pre ++ rest).length + 1 := by
    rw [List.length_append]
    omega
  obtain ⟨y, ys, exprs', g, hall, hexprs, hrest, hstop⟩ := exists_phrases_of_fragmentsFrom hfuel h
  obtain rfl : exprs = exprs' := hall
  exact ⟨y, ys, g, hexprs, hrest, hstop⟩

end StoryMarkup.Markup
