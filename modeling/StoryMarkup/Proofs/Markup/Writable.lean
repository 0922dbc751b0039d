import StoryMarkup.Proofs.Markup.Writing

/-! Sigils are written out in every well-formed phrase whose brackets match, and in no other. -/
namespace StoryMarkup.Markup

open List Script Text Phrase
variable {opened : List Bracket} {token : Token} {after : Lexer} {out : List (List Char)} {prop : Bool} {n : Nat}
  {f : List Char} {limit : Limit} {stop : Stop} {kind : TokenKind} {fuel levels pos : Nat} {next : Lexer}
  {text gap t pre run : List Char} {p : Bool} {x rest : Phrase} {start : Nat} {src : List Char} {w : Written}

/-- What is answered is `a` and all is good then; and where all is good and the answer is sure to
come, it does. -/
structure Answers {α : Type} (r : Except ScriptError α) (a : α) (sure good : Prop) : Prop where
  sound : ∀ b, r = .ok b → b = a ∧ good
  complete : sure → good → r = .ok a

namespace Answers

variable {α β : Type} {r : Except ScriptError α} {a : α} {sure sure' good good' : Prop}

lemma of_eq (h : r = .ok a) : Answers r a sure True :=
  ⟨fun _ hb => ⟨Except.ok.inj (hb.symm.trans h), trivial⟩, fun _ _ => h⟩

lemma imp (h : Answers r a sure good) (hsure : sure' → sure) (hgood : good' ↔ good) : Answers r a sure' good' :=
  ⟨fun b hb => (h.sound b hb).imp_right hgood.2, fun hs hg => h.complete (hsure hs) (hgood.1 hg)⟩

lemma bind {g : α → Except ScriptError β} {b : β} (h : Answers r a sure good) (hg : Answers (g a) b sure good') :
    Answers (r >>= g) b sure (good ∧ good') where
  sound := by
    intro c hc
    cases hr : r with
    | error e => simp [hr, Bind.bind, Except.bind] at hc
    | ok a' =>
      obtain ⟨rfl, hgood⟩ := h.sound a' hr
      rw [hr] at hc
      exact (hg.sound c hc).imp_right fun hgood' => ⟨hgood, hgood'⟩
  complete := fun hs ⟨hgood, hgood'⟩ => by
    rw [h.complete hs hgood]
    exact hg.complete hs hgood'

end Answers

/-- Where writing ends at byte `n`, the code is written and all is good then; and where all is good
and writing is sure to come to an end, it ends there. -/
structure Ends (r : Except ScriptError Written) (n : Nat) (stop : Stop) (code : List Char) (sure good : Prop) : Prop where
  sound : ∀ w, r = .ok w → w.stopAt = n → w.code = code ∧ good
  complete : sure → good → ∃ w, r = .ok w ∧ w.stopAt = n ∧ w.stop = stop

lemma Ends.imp {r : Except ScriptError Written} {code code' : List Char} {sure sure' good good' : Prop}
    (h : Ends r n stop code sure good) (hcode : code' = code) (hsure : sure' → sure) (hgood : good' ↔ good) :
    Ends r n stop code' sure' good' where
  sound := fun w hw hstop => hcode ▸ (h.sound w hw hstop).imp_right hgood.2
  complete := fun hs hg => h.complete (hsure hs) (hgood.1 hg)

lemma Answers.ends {α : Type} {r : Except ScriptError α} {a : α} {g : α → Except ScriptError Written} {code : List Char}
    {sure inside good : Prop} (h : Answers r a sure inside) (hg : Ends (g a) n stop code sure good) :
    Ends (r >>= g) n stop code sure (inside ∧ good) where
  sound := by
    intro w hw hstop
    cases hr : r with
    | error e => simp [hr, Bind.bind, Except.bind] at hw
    | ok a' =>
      obtain ⟨rfl, hinside⟩ := h.sound a' hr
      rw [hr] at hw
      exact (hg.sound w hw hstop).imp_right fun hgood => ⟨hinside, hgood⟩
  complete := fun hs ⟨hinside, hgood⟩ => by
    rw [h.complete hs hinside]
    exact hg.complete hs hgood

lemma Meets.isEnd (h : Meets n f limit stop) : IsEnd f := by
  cases h with
  | offset h => exact h
  | comma h => exact h ▸ .comma _
  | close h => exact h ▸ .close _ _

lemma Meets.eq_offset {n' : Nat} (h : Meets n f limit stop) (hlimit : limit = .offset n') : n' = n := by
  cases h with
  | offset => exact (Limit.offset.inj hlimit).symm
  | comma | close => cases hlimit

/-- Writing that has come to the end of a phrase, but for blanks, can stop there and only there. -/
theorem Meets.stops (h : Meets n f limit stop) (hgap : ∀ c ∈ gap, isBlank c = true) (hn : n = pos + byteLength gap) (p : Bool)
    (out : List (List Char)) :
    ∃ token after, Lexer.scan true maxNesting ⟨⟨pos, gap ++ f⟩, p⟩ = .ok (token, after) ∧ token.span.start = n ∧
      ∀ w, Stops out ⟨⟨pos, gap ++ f⟩, p⟩ token limit w ↔ w = ⟨out.reverse.flatten ++ gap, n, stop⟩ := by
  have hup : Cursor.upTo ⟨pos, gap ++ f⟩ n = gap := hn ▸ Cursor.upTo_append _ _ _
  have hrun : Cursor.runWhile isBlank ⟨pos, gap ++ f⟩ = gap := Cursor.runWhile_append _ hgap h.isEnd.not_blank
  rw [scan_gap hgap, ← hn]
  cases h with
  | offset h =>
    obtain ⟨token, after, hscan, hstart, -⟩ := h.scan true maxNesting n p
    refine ⟨token, after, hscan, hstart, fun w => ⟨?_, ?_⟩⟩
    · rintro ⟨⟩
      rw [hup]
    · rintro rfl
      have hstops : Stops out ⟨⟨pos, gap ++ f⟩, p⟩ token _ _ := .offset (.inl (Nat.le_of_eq hstart.symm))
      rwa [hup] at hstops
  | @comma b g h =>
    subst h
    refine ⟨_, _, scan_comma, rfl, fun w => ⟨?_, ?_⟩⟩
    · rintro (_ | _ | ⟨⟨⟩⟩)
      rw [hrun]
    · rintro rfl
      have hstops : Stops out ⟨⟨pos, gap ++ ',' :: g⟩, p⟩ ⟨.comma, ⟨n, n + 1⟩⟩ (.bracket b) _ := .comma rfl
      rwa [hrun] at hstops
  | @close b g h =>
    subst h
    refine ⟨_, _, scan_closing, rfl, fun w => ⟨?_, ?_⟩⟩
    · rintro (_ | ⟨⟨⟩⟩ | _)
      rw [hrun]
    · rintro rfl
      have hstops : Stops out ⟨⟨pos, gap ++ b.closeChar :: g⟩, p⟩ ⟨.closing b, ⟨n, n + 1⟩⟩ (.bracket b) _ := .close rfl
      rwa [hrun] at hstops

/-! Constants. -/

/-- A phrase can be read on, and starts with a name right here only if its first part is one. -/
theorem exists_scan (hend : IsEnd f) : (x : Phrase) → ∀ (pos : Nat) {p : Bool}, x.Valid p f → x.depth ≤ maxNesting →
    ∃ token after, Lexer.scan true maxNesting ⟨⟨pos, x.text ++ f⟩, p⟩ = .ok (token, after) ∧
      (x.startsName = false → ∀ name, token.kind = .ident name → token.span.start ≠ pos)
  | .done, pos, p, _, _ => by
    obtain ⟨token, after, hscan, -, hends⟩ := hend.scan true maxNesting pos p
    refine ⟨token, after, hscan, fun _ name hkind => ?_⟩
    rw [hkind] at hends
    cases hends
  | .blank c rest, pos, p, ⟨hc, hrest⟩, hdepth => by
    obtain ⟨token, after, hscan, -⟩ := exists_scan hend rest (pos + c.utf8Size) hrest hdepth
    have hle := ((holesRead maxNesting).scans hscan).pos_le
    have := c.utf8Size_pos
    rw [text, cons_append, scan_blank hc]
    exact ⟨token, after, hscan, fun _ _ _ => by simp only at hle; omega⟩
  | .comment newlines t rest, pos, p, ⟨hcomment, _⟩, _ => by
    rw [text, append_assoc]
    exact ⟨_, _, (Leads.comment hcomment).scan pos, fun _ _ => nofun⟩
  | .word kind t rest, pos, p, ⟨hword, hopens, _⟩, _ => by
    rw [text, append_assoc]
    refine ⟨_, _, (Leads.word hword hopens).scan pos, fun hstarts name hkind => ?_⟩
    obtain rfl : kind = .ident name := hkind
    cases hstarts
  | .template body rest, pos, p, ⟨hbody, _⟩, hdepth => by
    have hleads : (template body rest).Leads p f _ _ false rest := .template hbody (Nat.max_le.1 hdepth).1
    rw [hleads.text_eq, append_assoc]
    exact ⟨_, _, hleads.scan pos, fun _ _ => nofun⟩

lemma writeConstant_behind (i pos : Nat) (hrest : rest.Valid p f) (hdepth : rest.depth ≤ maxNesting) (hend : IsEnd f) :
    (∃ name t rest', rest = .word (.ident name) t rest' ∧
      writeConstant ⟨.atSign, ⟨i, pos⟩⟩ ⟨⟨pos, rest.text ++ f⟩, p⟩ = .ok (Scope.constants.root.toList ++ '.' :: t,
        ⟨⟨pos + byteLength t, rest'.text ++ f⟩, (TokenKind.ident name).allowsPattern⟩)) ∨
      rest.startsName = false ∧
        writeConstant ⟨.atSign, ⟨i, pos⟩⟩ ⟨⟨pos, rest.text ++ f⟩, p⟩ = .ok (['@'], ⟨⟨pos, rest.text ++ f⟩, p⟩) := by
  obtain ⟨ahead, past, hscan, hname⟩ := exists_scan hend rest pos hrest hdepth
  have hnext : Lexer.nextOrComment ⟨⟨pos, rest.text ++ f⟩, p⟩ = .ok (ahead, past) := hscan
  cases hstarts : rest.startsName with
  | false =>
    refine .inr ⟨rfl, ?_⟩
    simp only [writeConstant, hnext]
    split
    · rename_i name hkind
      rw [if_neg fun h => hname hstarts name hkind (beq_iff_eq.1 h)]
    · rfl
  | true =>
    match rest, hstarts with
    | .word (.ident name) t rest', _ =>
      rw [text, append_assoc, scan_word _ _ _ hrest.1 hrest.2.1] at hscan
      cases hscan
      refine .inl ⟨name, t, rest', rfl, ?_⟩
      simp only [writeConstant, hnext, beq_self_eq_true, if_true]
      rw [hrest.1.ident_text]
      rfl

/-! Templates. -/

def WritesHoles (inner : Span → Except ScriptError (List Char)) (src : List Char) (depth : Nat) : Prop :=
  ∀ (pre : List Char) (x : Phrase) (f : List Char), src = pre ++ (x.text ++ '}' :: f) → x.Valid true ('}' :: f) →
    x.depth ≤ maxNesting →
    Answers (inner ⟨byteLength pre, byteLength pre + byteLength x.text⟩) (x.written none true).text (x.depth < depth)
      (x.Nested true [])

section

variable {inner : Span → Except ScriptError (List Char)} {depth : Nat}

lemma writeTemplate_textParts {parts : List TemplatePart} {stop : Nat} {k : Cursor} :
    writeTemplate inner stop (textParts run ++ parts) k = writeTemplate inner stop parts k := by
  unfold textParts
  split <;> rfl

lemma writeTemplate_hole {first : Bool} {lead : List Char} {rest : Quote} {stop : Nat} :
    writeTemplate inner stop ((Quote.hole x rest).parts first run (byteLength (pre ++ lead)))
        ⟨byteLength pre, lead ++ ((Quote.hole x rest).text ++ f)⟩ = do
      let opened := pre ++ lead ++ ['$', '{']
      let code ← inner ⟨byteLength opened, byteLength opened + byteLength x.text⟩
      let more ← writeTemplate inner stop (rest.parts false [] (byteLength (opened ++ x.text ++ ['}'])))
        ⟨byteLength (opened ++ x.text), ['}'] ++ (rest.text ++ f)⟩
      return lead ++ ['$', '{'] ++ code ++ more := by
  have hlead : byteLength (pre ++ lead ++ ['$', '{']) = byteLength (pre ++ lead) + 2 := byteLength_append _ ['$', '{']
  have hk : lead ++ ((Quote.hole x rest).text ++ f) = lead ++ ['$', '{'] ++ (x.text ++ '}' :: (rest.text ++ f)) := by
    simp [Quote.text]
  have hup : Cursor.upTo ⟨byteLength pre, lead ++ ((Quote.hole x rest).text ++ f)⟩ (byteLength (pre ++ lead) + 2) =
      lead ++ ['$', '{'] := by
    rw [hk, ← hlead, append_assoc pre, byteLength_append pre]
    exact Cursor.upTo_append _ _ _
  have hopen : Cursor.skip ⟨byteLength pre, lead ++ ((Quote.hole x rest).text ++ f)⟩ (lead ++ ['$', '{']).length =
      ⟨byteLength (pre ++ lead) + 2, x.text ++ '}' :: (rest.text ++ f)⟩ := by
    rw [hk, Cursor.skip_append, ← byteLength_append, ← append_assoc, hlead]
  have hafter : Cursor.skip ⟨byteLength pre, lead ++ ((Quote.hole x rest).text ++ f)⟩
      ((lead ++ ['$', '{']).length + x.text.length) =
      ⟨byteLength (pre ++ lead ++ ['$', '{'] ++ x.text), ['}'] ++ (rest.text ++ f)⟩ := by
    rw [hk, ← append_assoc, ← length_append, Cursor.skip_append, ← byteLength_append]
    simp
  have hend : byteLength (pre ++ lead ++ ['$', '{'] ++ x.text ++ ['}']) =
      byteLength (pre ++ lead) + 2 + byteLength x.text + 1 := by
    rw [byteLength_append _ ['}'], byteLength_append _ x.text, hlead]
    rfl
  rw [Quote.parts, writeTemplate_textParts, writeTemplate]
  simp only [hend, hlead, hup, hopen, Cursor.upTo_append, hafter]
  cases inner ⟨byteLength (pre ++ lead) + 2, byteLength (pre ++ lead) + 2 + byteLength x.text⟩ with
  | error e => rfl
  | ok code =>
    simp only [bind, Except.bind]
    cases writeTemplate inner stop (rest.parts false [] (byteLength (pre ++ lead) + 2 + byteLength x.text + 1))
      ⟨byteLength (pre ++ lead ++ ['$', '{'] ++ x.text), ['}'] ++ (rest.text ++ f)⟩ <;> rfl

lemma writeTemplate_parts (hinner : WritesHoles inner src depth) : (q : Quote) → q.Valid → q.depth ≤ maxNesting →
    ∀ first run pre lead f stop, src = pre ++ (lead ++ (q.text ++ f)) → stop = byteLength (pre ++ (lead ++ q.text)) →
      Answers (writeTemplate inner stop (q.parts first run (byteLength (pre ++ lead))) ⟨byteLength pre, lead ++ (q.text ++ f)⟩)
        (lead ++ q.written.text) (q.depth ≤ depth) q.Nested
  | .done, _, _ => by
    intro first run pre lead f stop _ hstop
    have hrest : lead ++ (Quote.done.text ++ f) = lead ++ Quote.done.text ++ f := (append_assoc _ _ _).symm
    have hup : Cursor.upTo ⟨byteLength pre, lead ++ (Quote.done.text ++ f)⟩ stop = lead ++ Quote.done.text := by
      rw [hrest, hstop, byteLength_append pre, Cursor.upTo_append]
    refine .of_eq ?_
    unfold Quote.parts
    split
    · exact congrArg Except.ok hup
    · rw [← append_nil (textParts run), writeTemplate_textParts]
      exact congrArg Except.ok hup
  | .piece value raw rest, ⟨_, hrest⟩, hdepth => by
    intro first run pre lead f stop hsrc hstop
    have h := writeTemplate_parts hinner rest hrest hdepth first (value ++ run) pre (lead ++ raw) f stop
      (by simp [hsrc, Quote.text]) (by simp [hstop, Quote.text])
    rw [Quote.parts, ← byteLength_append, append_assoc]
    simpa [Quote.text, Quote.written, Quote.depth, Quote.Nested] using h
  | .hole x rest, ⟨hvalid, _, hrest⟩, hdepth => by
    intro first run pre lead f stop hsrc hstop
    have hmax : x.depth + 1 ≤ maxNesting ∧ rest.depth ≤ maxNesting := Nat.max_le.1 hdepth
    have hcode := hinner (pre ++ lead ++ ['$', '{']) x (rest.text ++ f) (by simp [hsrc, Quote.text]) (hvalid _)
      (Nat.le_of_succ_le hmax.1)
    have hmore := writeTemplate_parts hinner rest hrest hmax.2 false [] (pre ++ lead ++ ['$', '{'] ++ x.text) ['}'] f stop
      (by simp [hsrc, Quote.text]) (by simp [hstop, Quote.text])
    have htext : lead ++ (Quote.hole x rest).written.text =
        lead ++ ['$', '{'] ++ (x.written none true).text ++ (['}'] ++ rest.written.text) := by simp [Quote.written, Quote.text]
    rw [writeTemplate_hole, htext]
    have hsure : (Quote.hole x rest).depth ≤ depth ↔ x.depth < depth ∧ rest.depth ≤ depth := Nat.max_le
    have hnested : (Quote.hole x rest).Nested ↔ x.Nested true [] ∧ rest.Nested ∧ True := by simp [Quote.Nested]
    refine .imp (.bind (hcode.imp (fun h => (hsure.1 h).1) .rfl) (.bind (hmore.imp (fun h => (hsure.1 h).2) .rfl) (.of_eq rfl))) id
      hnested

/-! Tokens. -/

lemma writeToken_template {parts : List TemplatePart} {span : Span} {k : Cursor} :
    writeToken inner prop ⟨.template parts, span⟩ k after =
      writeTemplate inner span.stop parts k >>= fun text => .ok (text, after) := by
  simp only [writeToken]
  cases writeTemplate inner span.stop parts k <;> rfl

lemma Ends.of_leads {q : Bool} {kind : Nat → TokenKind} {code : List Char} {sure inside good : Prop}
    (hx : x.Leads p f t kind q rest) (hgap : ∀ c ∈ gap, isBlank c = true)
    (hn : n = byteLength (pre ++ gap) + byteLength x.text) (hend : Meets n f limit stop)
    (htoken : Answers (writeToken inner prop ⟨kind (byteLength (pre ++ gap)),
        ⟨byteLength (pre ++ gap), byteLength (pre ++ gap) + byteLength t⟩⟩ ⟨byteLength (pre ++ gap), t ++ (rest.text ++ f)⟩
        ⟨⟨byteLength (pre ++ gap) + byteLength t, rest.text ++ f⟩, q⟩) (text, next) sure inside)
    (hmore : Ends (writeTokens inner start limit fuel next (text :: gap :: out)
      ((kind (byteLength (pre ++ gap))).openedAfter opened) (kind (byteLength (pre ++ gap))).leadsProperty) n stop code sure good) :
    Ends (writeTokens inner start limit (fuel + 1) ⟨⟨byteLength pre, gap ++ (x.text ++ f)⟩, p⟩ out opened prop) n stop code
      sure ((kind (byteLength (pre ++ gap))).Fits limit.allowsCommas opened ∧ inside ∧ good) := by
  have hpos := byteLength_pos hx.ne_nil
  have hscan := hx.scan (byteLength (pre ++ gap))
  have hcs := Cursor.skipWhile_append (byteLength pre) hgap hx.not_blank
  have hrun := Cursor.runWhile_append (byteLength pre) hgap hx.not_blank
  have hbelow : byteLength (pre ++ gap) < n := by
    rw [hn, hx.text_eq, byteLength_append t]
    omega
  rw [hx.text_eq, append_assoc]
  rw [byteLength_append pre gap] at hscan hbelow htoken hmore ⊢
  rw [← scan_gap hgap] at hscan
  have hstep := writeTokens_step inner start fuel limit out opened prop hscan
  dsimp only at hstep
  rw [hcs, hrun, leadsProperty_eq] at hstep
  by_cases hfits : (kind (byteLength pre + byteLength gap)).Fits limit.allowsCommas opened
  · have hadmits : Admits limit opened ⟨kind (byteLength pre + byteLength gap), ⟨byteLength pre + byteLength gap,
        byteLength pre + byteLength gap + byteLength t⟩⟩ :=
      ⟨fun n' hlimit => hend.eq_offset hlimit ▸ hbelow, hx.not_eof _, hfits⟩
    obtain ⟨-, hwrite⟩ | ⟨hopened, w, hstops, -⟩ | ⟨-, hno, -⟩ := hstep
    · rw [hwrite]
      exact (htoken.ends hmore).imp rfl id (and_iff_right hfits)
    · exact absurd hstops (hopened ▸ hadmits).not_stops
    · exact absurd hadmits hno
  · refine ⟨fun w hw hstop => ?_, fun _ h => absurd h.1 hfits⟩
    obtain ⟨hadmits, -⟩ | ⟨-, w', hstops, hwrite⟩ | ⟨-, -, e, hwrite⟩ := hstep
    · exact absurd hadmits.fits hfits
    · obtain rfl := Except.ok.inj (hwrite.symm.trans hw)
      cases hstops with
      | offset hreached => simp only [hx.not_eof, Bool.false_eq_true, or_false, hend.eq_offset rfl] at hreached; omega
      | comma | close => simp only at hstop; omega
    · cases hwrite.symm.trans hw

lemma writeTokens_ends (hinner : WritesHoles inner src depth) (x : Phrase) :
    ∀ (pre gap : List Char) (last : Option TokenKind) (glued : Bool) (out : List (List Char)) (opened : List Bracket)
      {fuel : Nat} {f : List Char} {p prop : Bool}, src = pre ++ (gap ++ (x.text ++ f)) →
      (∀ c ∈ gap, isBlank c = true) → n = byteLength (pre ++ gap) + byteLength x.text → x.Valid p f → x.depth ≤ maxNesting →
      Meets n f limit stop → last.any TokenKind.leadsProperty = prop →
      (last = some .atSign → glued = true → x.startsName = false) → (gap ++ (x.text ++ f)).length < fuel →
      Ends (writeTokens inner start limit fuel ⟨⟨byteLength pre, gap ++ (x.text ++ f)⟩, p⟩ out opened prop) n stop
        (out.reverse.flatten ++ (gap ++ (x.written last glued).text)) (x.depth ≤ depth) (x.Nested limit.allowsCommas opened) := by
  -- the induction is on the phrase; blanks in front of it move into the gap
  cases x with
  | done =>
    intro pre gap last glued out opened fuel f p prop hsrc hgap hn _ _ hend _ _ hfuel
    obtain _ | fuel := fuel
    · omega
    rw [text, byteLength_nil, Nat.add_zero, byteLength_append] at hn
    obtain ⟨token, after, hread, hstart, hstops⟩ := hend.stops hgap hn p out
    rw [written, text, nil_append, append_nil]
    refine ⟨fun w hw hstop => ?_, ?_⟩
    · obtain ⟨token', after', hscan, hcases⟩ := writeTokens_ok hw
      cases hread.symm.trans hscan
      obtain ⟨rfl, hstopped⟩ | ⟨hadmits, text, next, htoken, hmore⟩ := hcases
      · rw [(hstops w).1 hstopped]
        exact ⟨rfl, rfl⟩
      · have hbelow := hadmits.lt_stopAt hscan htoken hmore
        omega
    · rintro - (rfl : opened = [])
      obtain ⟨hadmits, -⟩ | ⟨-, w, hstopped, hwrite⟩ | ⟨hno, -⟩ :=
        writeTokens_step inner start fuel limit out [] prop hread
      · exact absurd ((hstops _).2 rfl) hadmits.not_stops
      · rw [(hstops w).1 hstopped] at hwrite
        exact ⟨_, hwrite, rfl, rfl⟩
      · exact absurd ((hstops _).2 rfl) (hno rfl _)
  | blank c rest =>
    rintro pre gap last glued out opened fuel f p prop hsrc hgap hn ⟨hc, hrest⟩ hdepth hend hlast _ hfuel
    rw [show gap ++ ((blank c rest).text ++ f) = gap ++ [c] ++ (rest.text ++ f) by simp [text]] at hsrc hfuel ⊢
    refine (writeTokens_ends hinner rest pre (gap ++ [c]) last false out opened hsrc (isBlank_snoc hgap hc)
      (by simp [hn, text, Nat.add_assoc]) hrest hdepth hend hlast (by simp) hfuel).imp ?_ id .rfl
    simp [written, text]
  | comment newlines t rest =>
    rintro pre gap last glued out opened fuel f p prop hsrc hgap hn ⟨hcomment, hrest⟩ hdepth hend hlast _ hfuel
    have hleads : (comment newlines t rest).Leads p f t _ p rest := .comment hcomment
    obtain ⟨fuel, rfl, hless⟩ := hleads.exists_fuel hfuel
    have hmore := writeTokens_ends hinner rest (pre ++ gap ++ t) [] (some (.comment newlines)) true
      (commentText newlines :: gap :: out) opened (by simp [hsrc, text]) (by simp)
      (by simp [hn, text, Nat.add_assoc]) hrest hdepth hend rfl (by simp) hless
    rw [byteLength_append _ t] at hmore
    refine (Ends.of_leads hleads hgap hn hend (.of_eq rfl) hmore).imp ?_ id ?_
    · simp [written]
    · simp [Nested, TokenKind.Fits]
  | word kind t rest =>
    rintro pre gap last glued out opened fuel f p prop hsrc hgap hn ⟨hword, hopens, hrest⟩ hdepth hend hlast hsign hfuel
    have hleads : (word kind t rest).Leads p f t _ _ rest := .word hword hopens
    obtain ⟨fuel, rfl, hless⟩ := hleads.exists_fuel hfuel
    have hmore (text : List Char) (hstarts : kind = .atSign → rest.startsName = false) :=
      writeTokens_ends hinner rest (pre ++ gap ++ t) [] (some kind) true (text :: gap :: out)
        (kind.openedAfter opened) (by simp [hsrc, Phrase.text]) (by simp)
        (by simp [hn, Phrase.text, Nat.add_assoc]) hrest hdepth hend rfl (fun h _ => hstarts (Option.some.inj h)) hless
    simp only [byteLength_append _ t] at hmore
    by_cases hat : kind = .atSign
    · subst hat
      obtain rfl := hword.atSign_text
      obtain ⟨name, t', rest', rfl, hconstant⟩ | ⟨hstarts, hconstant⟩ := writeConstant_behind
        (byteLength (pre ++ gap)) (byteLength (pre ++ gap) + byteLength ['@']) hrest hdepth hend.isEnd
      · -- the name behind the at sign is written with it
        have hfewer : ([] ++ (rest'.text ++ f)).length < fuel := by
          simp [text] at hless ⊢
          omega
        have hname := writeTokens_ends hinner rest' (pre ++ gap ++ ['@'] ++ t') [] (some (.ident name)) true
          ((Scope.constants.root.toList ++ '.' :: t') :: gap :: out) opened (by simp [hsrc, text]) (by simp) (by simp [hn, text, Nat.add_assoc]) hrest.2.2 hdepth hend rfl (by simp)
          hfewer
        rw [byteLength_append _ t', byteLength_append _ ['@']] at hname
        refine (Ends.of_leads hleads hgap hn hend (.of_eq hconstant) hname).imp ?_ id ?_
        · simp [written, text, startsName, writing, keepsName, Writing.phrase]
        · simp [Nested, TokenKind.Fits]
      · refine (Ends.of_leads hleads hgap hn hend (.of_eq hconstant) (hmore ['@'] fun _ => hstarts)).imp ?_ id ?_
        · simp [written, text, hstarts, writing, Writing.phrase]
        · simp [Nested, TokenKind.Fits, TokenKind.openedAfter]
    · have hkept : ∀ name, kind = .ident name → keepsName last glued = prop := by
        rintro name rfl
        rw [Bool.eq_iff_iff, keepsName_iff, hlast]
        refine or_iff_left fun h => ?_
        simp [startsName] at hsign
        exact absurd h.2 (by simp [hsign h.1])
      obtain ⟨text, htoken, htext⟩ := exists_writeToken_word rest.startsName hword hat hkept
      refine (Ends.of_leads hleads hgap hn hend (.of_eq htoken) (hmore text fun h => absurd h hat)).imp ?_ id ?_
      · simp [written, htext]
      · simp [nested_word]
  | template body rest =>
    rintro pre gap last glued out opened fuel f p prop hsrc hgap hn ⟨hbody, hrest⟩ hdepth hend hlast _ hfuel
    have hmax : body.depth ≤ maxNesting ∧ rest.depth ≤ maxNesting := Nat.max_le.1 hdepth
    have hleads : (template body rest).Leads p f (backquote :: body.text) _ false rest := .template hbody hmax.1
    obtain ⟨fuel, rfl, hless⟩ := hleads.exists_fuel hfuel
    have hsure : (template body rest).depth ≤ depth ↔ body.depth ≤ depth ∧ rest.depth ≤ depth := Nat.max_le
    have htext := writeTemplate_parts hinner body hbody hmax.1 true [] (pre ++ gap) [backquote] (rest.text ++ f)
      (byteLength (pre ++ gap) + byteLength (backquote :: body.text)) (by simp [hsrc, text]) (by simp [Nat.add_assoc])
    have hmore := writeTokens_ends hinner rest (pre ++ gap ++ backquote :: body.text) [] none true
      (([backquote] ++ body.written.text) :: gap :: out) opened (by simp [hsrc, text]) (by simp)
      (by simp [hn, text, Nat.add_assoc]) hrest hmax.2 hend rfl (by simp) hless
    rw [byteLength_append _ [backquote], show byteLength [backquote] = 1 from rfl, singleton_append] at htext
    rw [byteLength_append _ (backquote :: body.text)] at hmore
    refine (Ends.of_leads hleads hgap hn hend
      (by rw [writeToken_template]; exact (htext.imp (fun h => (hsure.1 h).1) .rfl).bind (.of_eq rfl)) (hmore.imp rfl (fun h => (hsure.1 h).2) .rfl)).imp ?_ id ?_
    · simp [written, text]
    · simp [Nested, TokenKind.Fits]

end

def writeHole (src : List Char) (levels : Nat) (span : Span) : Except ScriptError (List Char) :=
  match write src levels span.start (.offset span.stop) with
  | .error e => .error e
  | .ok w => .ok w.code

lemma write_succ (src : List Char) (levels start : Nat) (limit : Limit) :
    write src (levels + 1) start limit =
      writeTokens (writeHole src levels) start limit ((Lexer.ofOffset src start).cursor.rest.length + 1)
        (Lexer.ofOffset src start) [] [] false := rfl

lemma ofOffset_byteLength (pre f : List Char) :
    Lexer.ofOffset (pre ++ f) (byteLength pre) = ⟨⟨byteLength pre, f⟩, true⟩ := by
  rw [Lexer.ofOffset, Cursor.ofOffset_append]


/-- A phrase is written out up to its end exactly if its brackets match, given the levels for its
templates. -/
theorem write_ends (pre : List Char) {depth : Nat} (hholes : WritesHoles (writeHole src levels) src depth)
    (hsrc : src = pre ++ (x.text ++ f)) (hx : x.Valid true f) (hdepth : x.depth ≤ maxNesting)
    (hend : Meets (byteLength pre + byteLength x.text) f limit stop) :
    Ends (write src (levels + 1) (byteLength pre) limit) (byteLength pre + byteLength x.text) stop (x.written none true).text
      (x.depth ≤ depth) (x.Nested limit.allowsCommas []) := by
  have hlexer : Lexer.ofOffset src (byteLength pre) = ⟨⟨byteLength pre, x.text ++ f⟩, true⟩ := by
    rw [hsrc, ofOffset_byteLength]
  rw [write_succ, hlexer]
  exact writeTokens_ends hholes x pre [] none true [] [] hsrc (by simp) (by simp) hx hdepth hend rfl (by simp) (Nat.lt_succ_self _)

lemma writesHoles_writeHole (src : List Char) (levels : Nat) :
    WritesHoles (writeHole src levels) src levels := by
  induction levels with
  | zero =>
    intro pre x f _ _ _
    exact ⟨nofun, fun h => absurd h (Nat.not_lt_zero _)⟩
  | succ levels ih =>
    intro pre x f hsrc hx hdepth
    have hends := write_ends pre ih hsrc hx hdepth (.offset (.close .curly f))
    refine ⟨fun code hcode => ?_, fun hs hg => ?_⟩
    · unfold writeHole at hcode
      split at hcode
      · cases hcode
      · rename_i w hw
        cases hcode
        exact hends.sound w hw ((stopAt_of_writeTokens (h := write_succ src levels _ _ ▸ hw)).1 _ rfl)
    · obtain ⟨w, hw, hstop, -⟩ := hends.complete (Nat.le_of_lt_succ hs) hg
      rw [writeHole, hw, ← (hends.sound w hw hstop).1]

lemma exists_write (pre : List Char) (hsrc : src = pre ++ (x.text ++ f)) (hx : x.Valid true f)
    (hdepth : x.depth ≤ maxNesting) (hend : Meets (byteLength pre + byteLength x.text) f limit stop)
    (hnested : x.Nested limit.allowsCommas []) :
    ∃ w, write src writeLevels (byteLength pre) limit = .ok w ∧ w.stopAt = byteLength pre + byteLength x.text ∧
      w.stop = stop ∧ w.code = (x.written none true).text := by
  have hends := write_ends pre (writesHoles_writeHole src (maxNesting + 1)) hsrc hx hdepth hend
  obtain ⟨w, hw, hstopAt, hstop⟩ := hends.complete (Nat.le_succ_of_le hdepth) hnested
  exact ⟨w, hw, hstopAt, hstop, (hends.sound w hw hstopAt).1⟩

/-- What is written out up to a limit stands before that limit as a phrase whose brackets match. -/
theorem exists_phrase_of_write (pre : List Char) {src rest : List Char} (hsrc : src = pre ++ rest)
    (h : write src (levels + 1) (byteLength pre) limit = .ok w)
    (hlimit : ∀ n, limit = .offset n → byteLength src = n) :
    ∃ (x : Phrase) (f : List Char), rest = x.text ++ f ∧ x.Valid true f ∧ x.depth ≤ maxNesting ∧
      w.stopAt = byteLength pre + byteLength x.text ∧ Meets w.stopAt f limit w.stop ∧ (limit.allowsCommas = true → f = []) ∧
      w.code = (x.written none true).text ∧ x.Nested limit.allowsCommas [] := by
  subst hsrc
  have hrun := h
  rw [write_succ, ofOffset_byteLength] at hrun
  obtain ⟨f, hmeets, ⟨x, htext, hvalid, hdepth⟩, hend, hnil⟩ := exists_phrase_of_writeTokens hrun
    fun n hn => by rw [← hlimit n hn, byteLength_append]
  obtain rfl : rest = x.text ++ f := htext
  have hstop : w.stopAt = byteLength pre + byteLength x.text := by
    simp only [byteLength_append] at hend
    omega
  have hcode := (write_ends pre (writesHoles_writeHole _ levels) rfl hvalid hdepth (hstop ▸ hmeets)).sound w h hstop
  exact ⟨x, f, rfl, hvalid, hdepth, hstop, hmeets, hnil, hcode⟩

lemma exists_write_of_writeExpression {code : String} (h : writeExpression src = .ok code) :
    ∃ w, write src writeLevels 0 (.offset (byteLength src)) = .ok w ∧ String.ofList (trimChars w.code) = code := by
  cases hw : write src writeLevels 0 (.offset (byteLength src)) with
  | error e => simp [writeExpression, hw, bind, Except.bind] at h
  | ok w =>
    simp only [writeExpression, hw] at h
    cases h
    exact ⟨w, rfl, rfl⟩

lemma exists_phrase_of_writeExpression {code : String} (h : writeExpression src = .ok code) :
    ∃ x : Phrase, x.text = src ∧ x.Valid true [] ∧ x.depth ≤ maxNesting ∧ x.Nested true [] ∧
      code = String.ofList (trimChars (x.written none true).text) := by
  obtain ⟨w, hw, rfl⟩ := exists_write_of_writeExpression h
  obtain ⟨x, f, hsrc, hx, hdepth, -, -, hnil, hcode, hnested⟩ := exists_phrase_of_write [] rfl hw (by simp)
  obtain rfl := hnil rfl
  exact ⟨x, by simpa using hsrc.symm, hx, hdepth, hnested, by rw [hcode]⟩

lemma writeExpression_text (hx : x.Valid true []) (hdepth : x.depth ≤ maxNesting) (hnested : x.Nested true []) :
    writeExpression x.text = .ok (String.ofList (trimChars (x.written none true).text)) := by
  obtain ⟨w, hw, -, -, hcode⟩ := exists_write [] (append_nil x.text).symm hx hdepth (.offset .nil) hnested
  rw [byteLength_nil, Nat.zero_add] at hw
  rw [writeExpression, hw, ← hcode]
  rfl

end StoryMarkup.Markup
