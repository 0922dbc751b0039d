import StoryMarkup.Proofs.Script.Tiling

/-! Texts as literals, between two quotes. Any character may be given by its code. -/
namespace StoryMarkup.Script

open List Text
variable {marks f : List Char} {c : Char} {byCode : Bool} {cs : List (Char × Bool)}

/-- A character of a literal: by its code, or as itself, behind a backslash where it is a mark. -/
def spelled (marks : List Char) (byCode : Bool) (c : Char) : List Char :=
  if byCode then '\\' :: 'u' :: '{' :: (Nat.toDigits 16 c.toNat ++ ['}'])
  else if c = '\n' then ['\\', 'n'] else if c = '\\' ∨ c ∈ marks then ['\\', c] else [c]

/-- A text between quotes, with the characters told apart that are written by their code. -/
def spelling (marks : List Char) (cs : List (Char × Bool)) :
    List Char := cs.flatMap fun (c, byCode) => spelled marks byCode c

/-! Codes. -/

lemma hexDigits_read (n : Nat) : (∀ c ∈ Nat.toDigits 16 n, isAsciiHexDigit c = true) ∧
    (Nat.toDigits 16 n).foldlM (fun n c => (Decimal.radixDigit? 16 c).map fun d => 16 * n + d) 0 = some n := by
  have hdigit : ∀ d < 16, isAsciiHexDigit d.digitChar = true ∧ Decimal.radixDigit? 16 d.digitChar = some d := by decide
  induction n using Nat.strongRecOn with
  | ind n ih =>
    by_cases hlt : n < 16
    · simp [Nat.toDigits_of_lt_base hlt, hdigit n hlt]
    · have hle : 16 ≤ n := Nat.not_lt.1 hlt
      obtain ⟨hmem, hvalue⟩ := ih (n / 16) (Nat.div_lt_self (by omega) (by decide))
      have hlast := hdigit (n % 16) (Nat.mod_lt n (by decide))
      rw [Nat.toDigits_of_base_le (by decide) hle, foldlM_append, hvalue]
      refine ⟨fun c hc => ?_, by simp [hlast, Nat.div_add_mod]⟩
      rcases mem_append.1 hc with hc | hc
      · exact hmem c hc
      · rw [mem_singleton.1 hc]
        exact hlast.1

lemma reads_code (c : Char) (start : Nat) (f : List Char) :
    Reads (scanEscape start) [c] ('u' :: '{' :: (Nat.toDigits 16 c.toNat ++ ['}'])) f := by
  intro pos
  obtain ⟨hdigits, hvalue⟩ := hexDigits_read c.toNat
  have hbrace : ∀ d ∈ ('}' :: f).head?, isAsciiHexDigit d = false := by
    rintro _ ⟨⟩
    decide
  have hcode : (Decimal.radixValue? 16 (Nat.toDigits 16 c.toNat)).filter (·.isValidChar) = some c.toNat := by
    have hne : (Nat.toDigits 16 c.toNat).isEmpty = false := by simp
    have hvalid : decide c.toNat.isValidChar = true := decide_eq_true c.valid
    rw [Decimal.radixValue?, hne, if_neg (by decide), hvalue, Option.filter_some, hvalid, if_pos rfl]
  simp only [scanEscape, cons_append, append_assoc, nil_append, Cursor.next?, Cursor.peek?, head?_cons,
    beq_self_eq_true, if_true, Cursor.skip_one, scanBracedDigits, Cursor.skipWhile_append _ hdigits hbrace,
    Cursor.runWhile_append _ hdigits hbrace, hcode, Option.map_some, Char.ofNat_toNat,
      byteLength_cons, byteLength_append,
    byteLength_nil, Nat.add_assoc, Nat.add_zero]

/-! One character. -/

def Spells (marks : List Char) (c : Char) (t : List Char) : Prop :=
  (∃ u, t = '\\' :: u ∧ ∀ start f, Reads (scanEscape start) [c] u f) ∨ t = [c] ∧ c ≠ '\n' ∧ c ≠ '\\' ∧ c ∉ marks

lemma spells_spelled (hmarks : ∀ m ∈ marks, m ∈ ['"', '\'', backquote, '$']) (byCode : Bool)
    (c : Char) : Spells marks c (spelled marks byCode c) := by
  unfold spelled
  split
  · exact .inl ⟨_, rfl, reads_code c⟩
  split
  · rename_i hbreak
    subst hbreak
    exact .inl ⟨_, rfl, fun _ _ _ => rfl⟩
  rename_i hbreak
  split
  · rename_i hmark
    refine .inl ⟨_, rfl, fun start f pos => ?_⟩
    have hc : c ∈ ['\\', '"', '\'', backquote, '$'] := mem_cons.2 (hmark.imp_right (hmarks c))
    simp only [mem_cons, not_mem_nil, or_false] at hc
    rcases hc with rfl | rfl | rfl | rfl | rfl <;> rfl
  · rename_i hplain
    exact .inr ⟨rfl, hbreak, fun h => hplain (.inl h), fun h => hplain (.inr h)⟩

lemma Spells.ne_nil {t : List Char} (h : Spells marks c t) : t ≠ [] := by
  obtain ⟨u, rfl, -⟩ | ⟨rfl, -⟩ := h <;> exact cons_ne_nil _ _

/-! Strings. -/

lemma scanStringBody_spells {quote : Char} {t : List Char} (hquote : quote = '"' ∨ quote = '\'')
    (h : Spells [quote] c t) (start fuel pos : Nat) (done f : List Char) :
    scanStringBody quote start (fuel + 1) done ⟨pos, t ++ f⟩ =
      scanStringBody quote start fuel (c :: done) ⟨pos + byteLength t, f⟩ := by
  obtain ⟨u, rfl, hreads⟩ | ⟨rfl, hbreak, hslash, hmark⟩ := h
  · have hother : ('\\' == '\n') = false ∧ ('\\' == quote) = false := by rcases hquote with rfl | rfl <;> decide
    have hread := hreads start f (pos + '\\'.utf8Size)
    simp [scanStringBody, Cursor.next?, hother, hread, Nat.add_assoc]
  · have hplain : c ≠ quote := fun h => hmark (List.mem_singleton.2 h)
    simp [scanStringBody, Cursor.next?, hbreak, hplain, hslash]

lemma reads_spelling {quote : Char} (hquote : quote = '"' ∨ quote = '\'') (cs : List (Char × Bool)) (done : List Char) :
    ReadsOn (scanStringBody quote · · done) (.string (String.ofList (done.reverse ++ cs.map Prod.fst)))
      (spelling [quote] cs) [quote] := by
  induction cs generalizing done with
  | nil =>
    refine .stop fun start fuel pos f => ?_
    have hbreak : (quote == '\n') = false := by rcases hquote with rfl | rfl <;> rfl
    simp [scanStringBody, Cursor.next?, hbreak]
  | cons c cs ih =>
    have hspells : Spells [quote] c.1 (spelled [quote] c.2 c.1) := by
      refine spells_spelled (fun m hm => ?_) c.2 c.1
      rw [mem_singleton.1 hm]
      rcases hquote with rfl | rfl <;> decide
    have hrest := ih (c.1 :: done)
    rw [reverse_cons, append_assoc, singleton_append] at hrest
    exact hrest.step hspells.ne_nil fun start fuel pos f => scanStringBody_spells hquote hspells start fuel pos done _

/-! Templates. -/

/-- The characters of a text as pieces of a template. -/
def quoted : List (Char × Bool) → Quote
  | [] => .done
  | (c, byCode) :: cs => .piece [c] (spelled [backquote, '$'] byCode c) (quoted cs)

lemma text_quoted (cs : List (Char × Bool)) : (quoted cs).text = spelling [backquote, '$'] cs ++ [backquote] := by
  induction cs with
  | nil => rfl
  | cons c cs ih => rw [quoted, Quote.text, ih, spelling, spelling, flatMap_cons, append_assoc]

lemma valid_quoted (cs : List (Char × Bool)) : (quoted cs).Valid ∧ (quoted cs).depth = 0 := by
  induction cs with
  | nil => exact ⟨trivial, rfl⟩
  | cons c cs ih =>
    refine ⟨⟨?_, ih.1⟩, ih.2⟩
    have hspells : Spells [backquote, '$'] c.1 (spelled [backquote, '$'] c.2 c.1) :=
      spells_spelled (fun m hm => mem_cons_of_mem _ (mem_cons_of_mem _ hm)) c.2 c.1
    obtain ⟨u, hu, hreads⟩ | ⟨ht, -, hslash, hmark⟩ := hspells
    · rw [hu]
      exact .escape hreads
    · rw [ht]
      simp only [mem_cons, not_mem_nil, or_false, not_or] at hmark
      exact .plain hmark.1 hslash fun h => absurd h hmark.2

lemma parts_quoted (cs : List (Char × Bool)) (run : List Char) (pos : Nat) :
    (quoted cs).parts true run pos = [.text (String.ofList (run.reverse ++ cs.map Prod.fst))] := by
  induction cs generalizing run pos with
  | nil => cases run <;> simp [quoted, Quote.parts, textParts]
  | cons c cs ih => simp [quoted, Quote.parts, ih]

/-- The tokens of a source that is one token. -/
def onlyToken (kind : TokenKind) (src : List Char) : List Token :=
  [⟨kind, ⟨0, byteLength src⟩⟩, ⟨.eof, ⟨byteLength src, byteLength src⟩⟩]

lemma tokens_eq_onlyToken {keep : Bool} {src : List Char} {kind : TokenKind} {p : Bool}
    (hkind : kind.isEof = false) (h : Lexer.scan keep maxNesting ⟨⟨0, src⟩, true⟩ =
      .ok (⟨kind, ⟨0, byteLength src⟩⟩, ⟨⟨byteLength src, []⟩, p⟩)) :
    (Lexer.ofOffset src 0).tokens keep = (onlyToken kind src, none) := by
  have hyields : (Lexer.ofOffset src 0).Yields keep (onlyToken kind src) none := by
    have hstart : Lexer.ofOffset src 0 = ⟨⟨0, src⟩, true⟩ := by simp [Lexer.ofOffset, Cursor.ofOffset, dropBytes?]
    exact .token (hstart ▸ h) hkind (.eof scan_nil rfl)
  exact hyields.tokensFrom_eq (Nat.lt_succ_self _)

/-- A text that is written between two quotes of a kind is read as a string of that text and nothing
else, and between backquotes as a template with that text for its one part, whichever characters are
written by their code. -/
theorem every_text_has_literals (keep : Bool) (cs : List (Char × Bool)) :
    let text := String.ofList (cs.map Prod.fst)
    let alone (kind : TokenKind) (src : List Char) : Prop :=
      (Lexer.ofOffset src 0).tokens keep = (onlyToken kind src, none)
    (∀ quote ∈ ['"', '\''], alone (.string text) (quote :: (spelling [quote] cs ++ [quote]))) ∧
      alone (.template [.text text]) (backquote :: (spelling [backquote, '$'] cs ++ [backquote])) := by
  refine ⟨fun quote hquote => ?_, ?_⟩
  · have hquote : quote = '"' ∨ quote = '\'' := by simpa using hquote
    have hword : Word true (.string (String.ofList (cs.map Prod.fst))) (quote :: (spelling [quote] cs ++ [quote])) [] :=
      .string hquote (fun start fuel f hfuel => reads_spelling hquote cs [] start fuel f hfuel) ⟨_, rfl⟩
    have hopens : opensComment (quote :: (spelling [quote] cs ++ [quote]) ++ []) = false := by
      rcases hquote with rfl | rfl <;> rfl
    have hscan := scan_word keep maxNesting 0 hword hopens
    rw [append_nil, Nat.zero_add] at hscan
    exact tokens_eq_onlyToken rfl hscan
  · obtain ⟨hvalid, hdepth⟩ := valid_quoted cs
    have hread := (quoted cs).reads hvalid (Nat.le_trans (Nat.le_of_eq hdepth)
      (Nat.zero_le maxNesting)) 0 ((quoted cs).text.length + 2) [] [] 1 [] (Nat.le_add_right _ 2)
    rw [append_nil, reverse_nil, nil_append, isEmpty_nil, parts_quoted, text_quoted] at hread
    have hscan :
      Lexer.scan keep maxNesting ⟨⟨0, backquote :: (spelling [backquote, '$'] cs ++ [backquote])⟩, true⟩ = _ :=
      scan_backquote hread
    exact tokens_eq_onlyToken (p := false) rfl (by rw [hscan, byteLength_cons, utf8Size_backquote]; rfl)

theorem quote_between_quotes : (Lexer.ofOffset ['"', '\\', '"', '"'] 0).tokens false =
    (onlyToken (.string "\"") ['"', '\\', '"', '"'], none) :=
  (every_text_has_literals false [('"', false)]).1 '"' (by decide)

end StoryMarkup.Script
