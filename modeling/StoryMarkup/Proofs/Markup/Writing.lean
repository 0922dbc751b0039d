import StoryMarkup.Proofs.Markup.Sigils

/-! What is written for an expression is the text of its phrase with the sigils written out. -/
namespace StoryMarkup.Markup

open Script Text
variable {token : Token} {after next lx : Lexer} {text f : List Char} {fuel levels pos : Nat} {out : List (List Char)}
  {opened : List Bracket} {prop p : Bool} {w : Written} {limit : Limit} {k : Cursor}
  {gap cs t : List Char} {rest : Phrase} {kind : TokenKind} {start : Nat}

def writeToken (inner : Span → Except ScriptError (List Char)) (prop : Bool) (token : Token)
    (k : Cursor) (after : Lexer) : Except ScriptError (List Char × Lexer) :=
  match token.kind with
  | .comment newlines => .ok (commentText newlines, after)
  | .ident name => .ok (if prop then k.upTo token.span.stop else writeIdent name, after)
  | .atSign => writeConstant token after
  | .template parts =>
    match writeTemplate inner token.span.stop parts k with
    | .error e => .error e
    | .ok text => .ok (text, after)
  | _ => .ok (k.upTo token.span.stop, after)

lemma leadsProperty_eq (token : Token) : leadsProperty token = token.kind.leadsProperty := rfl

lemma writeConstant_ok (h : writeConstant token after = .ok (text, next)) :
    ∃ ahead past, after.scan true maxNesting = .ok (ahead, past) ∧
      ((∃ name, ahead.kind = .ident name ∧ ahead.span.start = token.span.stop ∧
          text = Scope.constants.root.toList ++ '.' :: name.toList ∧ next = past) ∨
        (∀ name, ahead.kind = .ident name → ahead.span.start ≠ token.span.stop) ∧ text = ['@'] ∧ next = after) := by
  unfold writeConstant at h
  split at h
  · cases h
  · rename_i ahead past hscan
    refine ⟨ahead, past, hscan, ?_⟩
    split at h
    · rename_i name hname
      split at h
      · rename_i hstart
        cases h
        exact .inl ⟨name, hname, beq_iff_eq.1 hstart, rfl, rfl⟩
      · rename_i hstart
        cases h
        exact .inr ⟨fun _ _ => mt beq_iff_eq.2 hstart, rfl, rfl⟩
    · rename_i hname
      cases h
      exact .inr ⟨fun name hkind => absurd hkind (hname name), rfl, rfl⟩

lemma writeIdent_eq (name : String) :
    writeIdent name = match fieldOf? name with
      | some (scope, field) => scope.root.toList ++ '.' :: field.toList
      | none => name.toList := by
  match hname : name.toList with
  | [] => simp only [writeIdent, fieldOf?, hname]
  | [s] => simp only [writeIdent, fieldOf?, hname]
  | s :: c :: rest =>
    simp only [writeIdent, fieldOf?, hname]
    cases isAsciiDigit c with
    | true => rfl
    | false =>
      simp only [Bool.false_eq_true, if_false]
      cases hstory : s == '$' with
      | true => simp [Scope.root]
      | false =>
        cases htemp : s == '_' with
        | true => simp [Scope.root]
        | false => rfl

def Limit.allowsCommas : Limit → Bool
  | .bracket _ => false
  | .offset _ => true

inductive Stops (out : List (List Char)) (lx : Lexer) (token : Token) : Limit → Written → Prop
  | offset {n : Nat} (h : n ≤ token.span.start ∨ token.kind.isEof = true) :
    Stops out lx token (.offset n) ⟨out.reverse.flatten ++ lx.cursor.upTo n, n, .close⟩
  | comma {b : Bracket} (h : token.kind = .comma) :
    Stops out lx token (.bracket b) ⟨out.reverse.flatten ++ lx.cursor.runWhile isBlank, token.span.start, .comma⟩
  | close {b : Bracket} (h : token.kind = .closing b) :
    Stops out lx token (.bracket b) ⟨out.reverse.flatten ++ lx.cursor.runWhile isBlank, token.span.start, .close⟩

structure Admits (limit : Limit) (opened : List Bracket) (token : Token) : Prop where
  below : ∀ n, limit = .offset n → token.span.start < n
  more : token.kind.isEof = false
  fits : token.kind.Fits limit.allowsCommas opened

lemma Admits.not_stops (h : Admits limit [] token) : ¬Stops out lx token limit w := by
  intro hstops
  cases hstops with
  | offset hstop =>
    have := h.below _ rfl
    simp only [h.more, Bool.false_eq_true, or_false] at hstop
    omega
  | comma hkind => cases h.fits.1 hkind rfl
  | close hkind => cases h.fits.2 _ hkind

section

variable {inner : Span → Except ScriptError (List Char)} {start : Nat}

/-- What is done with a token. Either it is admitted and writing goes on behind it, or writing ends
before it, or fails. -/
theorem writeTokens_step (inner : Span → Except ScriptError (List Char)) (start fuel : Nat)
    (limit : Limit) (out : List (List Char)) (opened : List Bracket) (prop : Bool)
    (hscan : lx.scan true maxNesting = .ok (token, after)) :
    Admits limit opened token ∧
        writeTokens inner start limit (fuel + 1) lx out opened prop = (do
          let (text, next) ← writeToken inner prop token (lx.cursor.skipWhile isBlank) after
          writeTokens inner start limit fuel next (text :: lx.cursor.runWhile isBlank :: out)
            (token.kind.openedAfter opened) (leadsProperty token)) ∨
      (opened = [] ∧ ∃ w, Stops out lx token limit w ∧
        writeTokens inner start limit (fuel + 1) lx out opened prop = .ok w) ∨
      ((opened = [] → ∀ w, ¬Stops out lx token limit w) ∧ ¬Admits limit opened token ∧
        ∃ e, writeTokens inner start limit (fuel + 1) lx out opened prop = .error e) := by
  have hnext : lx.nextOrComment = .ok (token, after) := hscan
  have hcode : ∀ text, (text :: out).reverse.flatten = out.reverse.flatten ++ text := by simp
  rw [writeTokens]
  simp only [hnext, hcode]
  split
  · rename_i n hreached
    have hstop : n ≤ token.span.start ∨ token.kind.isEof = true := by simpa [writeTokens.reached] using hreached
    cases opened with
    | nil => exact .inr (.inl ⟨rfl, _, .offset hstop, rfl⟩)
    | cons b outer =>
      refine .inr (.inr ⟨nofun, fun h => ?_, _, rfl⟩)
      obtain hstop | heof := hstop
      · exact absurd (h.below n rfl) (Nat.not_lt.2 hstop)
      · simp [h.more] at heof
  · rename_i limit _ _ hreached
    have hbelow : ∀ n, limit = .offset n → token.span.start < n ∧ token.kind.isEof = false := by
      rintro n rfl
      simpa [writeTokens.reached] using hreached n rfl
    have hgo (hmore : token.kind.isEof = false) (hcomma : token.kind = .comma → opened = [] → limit.allowsCommas = true)
        (hclosing : ∀ b, token.kind = .closing b → opened.head? = some b) : Admits limit opened token :=
      ⟨fun n hn => (hbelow n hn).1, hmore, hcomma, hclosing⟩
    have hfails (e : ScriptError) (hno : ¬Admits limit opened token) (hkind : opened = [] → token.kind ≠ .comma)
        (hclose : opened = [] → ∀ b, limit = .bracket b → token.kind ≠ .closing b) :
        (opened = [] → ∀ w, ¬Stops out lx token limit w) ∧ ¬Admits limit opened token ∧
          ∃ e', (.error e : Except ScriptError Written) = .error e' := by
      refine ⟨fun hopened w hstops => ?_, hno, _, rfl⟩
      cases hstops with
      | @offset n hstop =>
        obtain ⟨hlt, hmore⟩ := hbelow n rfl
        simp only [hmore, Bool.false_eq_true, or_false] at hstop
        omega
      | comma h => exact hkind hopened h
      | close h => exact hclose hopened _ rfl h
    clear hreached
    obtain ⟨kind, span⟩ := token
    cases kind with
    | eof => exact .inr (.inr (hfails _ (fun h => nomatch h.more) nofun nofun))
    | comma =>
      cases limit with
      | offset n => exact .inl ⟨hgo rfl (fun _ _ => rfl) nofun, rfl⟩
      | bracket b =>
        cases opened with
        | nil => exact .inr (.inl ⟨rfl, _, .comma rfl, rfl⟩)
        | cons c outer => exact .inl ⟨hgo rfl nofun nofun, rfl⟩
    | closing b =>
      cases opened with
      | nil =>
        dsimp only
        split
        · rename_i hlimit
          obtain rfl := beq_iff_eq.1 hlimit
          exact .inr (.inl ⟨rfl, _, .close rfl, rfl⟩)
        · rename_i hlimit
          refine .inr (.inr (hfails _ (fun h => nomatch h.fits.2 b rfl) nofun fun _ b' hb hkind => ?_))
          cases hkind
          exact hlimit (beq_iff_eq.2 hb)
      | cons c outer =>
        dsimp only
        split
        · rename_i hsame
          obtain rfl := beq_iff_eq.1 hsame
          refine .inl ⟨hgo rfl nofun ?_, rfl⟩
          rintro _ ⟨⟩
          rfl
        · rename_i hsame
          refine .inr (.inr (hfails _ (fun h => ?_) nofun nofun))
          cases h.fits.2 b rfl
          exact hsame (beq_self_eq_true b)
    | atSign =>
      refine .inl ⟨hgo rfl nofun nofun, ?_⟩
      simp only [writeToken]
      cases writeConstant ⟨.atSign, span⟩ after <;> rfl
    | template parts =>
      refine .inl ⟨hgo rfl nofun nofun, ?_⟩
      simp only [writeToken]
      cases writeTemplate inner span.stop parts (lx.cursor.skipWhile isBlank) <;> rfl
    | _ => exact .inl ⟨hgo rfl (by simp) (by simp), rfl⟩

lemma writeTokens_ok (h : writeTokens inner start limit (fuel + 1) lx out opened prop = .ok w) :
    ∃ token after, lx.scan true maxNesting = .ok (token, after) ∧
      (opened = [] ∧ Stops out lx token limit w ∨
        Admits limit opened token ∧ ∃ text next,
          writeToken inner prop token (lx.cursor.skipWhile isBlank) after = .ok (text, next) ∧
          writeTokens inner start limit fuel next (text :: lx.cursor.runWhile isBlank :: out)
            (token.kind.openedAfter opened) (leadsProperty token) = .ok w) := by
  cases hscan : lx.scan true maxNesting with
  | error e =>
    have hnext : lx.nextOrComment = .error e := hscan
    simp [writeTokens, hnext] at h
  | ok read =>
    obtain ⟨token, after⟩ := read
    refine ⟨token, after, rfl, ?_⟩
    obtain ⟨hadmits, hrun⟩ | ⟨hopened, w', hstops, hrun⟩ | ⟨-, -, e, hrun⟩ :=
      writeTokens_step inner start fuel limit out opened prop hscan
    · rw [hrun] at h
      cases htoken : writeToken inner prop token (lx.cursor.skipWhile isBlank) after with
      | error e => simp [htoken, bind, Except.bind] at h
      | ok result =>
        simp only [htoken, bind, Except.bind] at h
        exact .inr ⟨hadmits, _, _, rfl, h⟩
    · rw [hrun] at h
      cases h
      exact .inl ⟨hopened, hstops⟩
    · rw [hrun] at h
      cases h

lemma writeToken_next (h : writeToken inner prop token k after = .ok (text, next)) :
    next = after ∨ ∃ ahead, after.scan true maxNesting = .ok (ahead, next) ∧ ahead.kind.isEof = false := by
  unfold writeToken at h
  split at h
  · cases h
    exact .inl rfl
  · cases h
    exact .inl rfl
  · obtain ⟨ahead, past, hahead, ⟨name, hname, -, -, rfl⟩ | ⟨-, -, rfl⟩⟩ := writeConstant_ok h
    · exact .inr ⟨ahead, hahead, by rw [hname]; rfl⟩
    · exact .inl rfl
  · split at h
    · cases h
    · cases h
      exact .inl rfl
  · cases h
    exact .inl rfl

lemma stopAt_of_writeTokens (h : writeTokens inner start limit fuel lx out opened prop = .ok w) :
    (∀ n, limit = .offset n → w.stopAt = n) ∧ (∀ b, limit = .bracket b → lx.cursor.pos ≤ w.stopAt) := by
  induction fuel generalizing lx out opened prop with
  | zero => cases h
  | succ fuel ih =>
    obtain ⟨token, after, hscan, ⟨-, hstops⟩ | ⟨hadmits, text, next, htoken, hmore⟩⟩ := writeTokens_ok h
    · have hle := ((holesRead maxNesting).scans hscan).pos_le
      cases hstops with
      | offset => exact ⟨fun n hn => (Limit.offset.inj hn), nofun⟩
      | comma | close => exact ⟨nofun, fun _ _ => hle⟩
    · have hscans := (holesRead maxNesting).scans hscan
      have hle := Nat.lt_of_le_of_lt hscans.pos_le (hscans.start_lt hadmits.more)
      refine ⟨(ih hmore).1, fun b hb => ?_⟩
      have hnext := (ih hmore).2 b hb
      obtain rfl | ⟨ahead, hahead, hkind⟩ := writeToken_next htoken
      · omega
      · have hscans' := (holesRead maxNesting).scans hahead
        have := Nat.lt_of_le_of_lt hscans'.pos_le (hscans'.start_lt hkind)
        omega

lemma Admits.lt_stopAt {opened' : List Bracket} {property' : Bool}
    (hadmits : Admits limit opened token) (hscan : lx.scan true maxNesting = .ok (token, after))
    (htoken : writeToken inner prop token k after = .ok (text, next))
    (h : writeTokens inner start limit fuel next out opened' property' = .ok w) : token.span.start < w.stopAt := by
  cases limit with
  | offset n =>
    rw [(stopAt_of_writeTokens h).1 n rfl]
    exact hadmits.below n rfl
  | bracket b =>
    have hafter := ((holesRead maxNesting).scans hscan).start_lt hadmits.more
    have hstop := (stopAt_of_writeTokens h).2 b rfl
    obtain rfl | ⟨ahead, hahead, hkind⟩ := writeToken_next htoken
    · omega
    · have hscans := (holesRead maxNesting).scans hahead
      have := Nat.lt_of_le_of_lt hscans.pos_le (hscans.start_lt hkind)
      omega

/-- What ends a phrase that is written up to a limit: it stands at byte `n` before the text `f`. -/
inductive Meets (n : Nat) (f : List Char) : Limit → Stop → Prop
  | offset (h : IsEnd f) : Meets n f (.offset n) .close
  | comma {b : Bracket} {g : List Char} (h : f = ',' :: g) : Meets n f (.bracket b) .comma
  | close {b : Bracket} {g : List Char} (h : f = b.closeChar :: g) : Meets n f (.bracket b) .close

lemma exists_phrase_of_writeTokens
    (h : writeTokens inner start limit fuel lx out opened prop = .ok w)
    (hlimit : ∀ n, limit = .offset n → lx.cursor.pos + byteLength lx.cursor.rest = n) :
    ∃ f, Meets w.stopAt f limit w.stop ∧ IsPhrase maxNesting f lx ∧
      w.stopAt + byteLength f = lx.cursor.pos + byteLength lx.cursor.rest ∧ (limit.allowsCommas = true → f = []) := by
  induction fuel generalizing lx out opened prop with
  | zero => cases h
  | succ fuel ih =>
    obtain ⟨token, after, hscan, ⟨-, hstops⟩ | ⟨hadmits, text, next, htoken, hmore⟩⟩ := writeTokens_ok h
    · have hscans := (holesRead maxNesting).scans hscan
      cases hstops with
      | offset hstop =>
        exact ⟨[], .offset .nil, hscans.isPhrase_of_stop hstop (hlimit _ rfl), (hlimit _ rfl).symm, fun _ => rfl⟩
      | comma hkind =>
        obtain ⟨g, hread, hend⟩ := hscans.readAs_nil (c := ',') (by rw [hkind]; simp [punctuation])
        exact ⟨_, .comma rfl, hread.isPhrase, hend, by simp [Limit.allowsCommas]⟩
      | @close b hkind =>
        have hmem : (b.closeChar, token.kind) ∈ punctuation := by
          rw [hkind]
          cases b <;> simp [punctuation, Bracket.closeChar]
        obtain ⟨g, hread, hend⟩ := hscans.readAs_nil hmem
        exact ⟨_, .close rfl, hread.isPhrase, hend, by simp [Limit.allowsCommas]⟩
    · have hscans := (holesRead maxNesting).scans hscan
      rw [hscans.end_eq] at hlimit ⊢
      obtain rfl | ⟨ahead, hahead, hkind⟩ := writeToken_next htoken
      · obtain ⟨f, hf, hphrase, hend⟩ := ih hmore hlimit
        exact ⟨f, hf, hscans.isPhrase hadmits.more hphrase, hend⟩
      · have hscans' := (holesRead maxNesting).scans hahead
        rw [hscans'.end_eq] at hlimit ⊢
        obtain ⟨f, hf, hphrase, hend⟩ := ih hmore hlimit
        exact ⟨f, hf, hscans.isPhrase hadmits.more (hscans'.isPhrase hkind hphrase), hend⟩

lemma scan_gap {keep : Bool} (hgap : ∀ c ∈ gap, isBlank c = true) :
    Lexer.scan keep levels ⟨⟨pos, gap ++ cs⟩, p⟩ = Lexer.scan keep levels ⟨⟨pos + byteLength gap, cs⟩, p⟩ := by
  induction gap generalizing pos with
  | nil => rfl
  | cons c gap ih =>
    rw [List.cons_append, scan_blank (hgap c (by simp)), ih fun d hd => hgap d (by simp [hd]),
      byteLength_cons, Nat.add_assoc]

lemma isBlank_snoc {c : Char} (hgap : ∀ d ∈ gap, isBlank d = true) (hc : isBlank c = true) :
    ∀ d ∈ gap ++ [c], isBlank d = true := by
  simpa [or_imp, forall_and, hc] using hgap

lemma exists_writeToken_word {kept : Bool} (named : Bool) (hword : Word p kind t f)
    (hkind : kind ≠ .atSign) (hkept : ∀ name, kind = .ident name → kept = prop) :
    ∃ text, writeToken inner prop ⟨kind, ⟨pos, pos + byteLength t⟩⟩ ⟨pos, t ++ f⟩ after = .ok (text, after) ∧
      ∀ rest : Phrase, ((writing kept named kind).phrase kind t rest).text = text ++ rest.text := by
  simp only [writeToken, Cursor.upTo_append]
  cases kind with
  | ident name =>
    obtain rfl := hkept name rfl
    refine ⟨_, rfl, fun rest => ?_⟩
    cases kept with
    | true => rfl
    | false =>
      simp only [writing, Bool.false_eq_true, if_false, writeIdent_eq]
      cases hfield : fieldOf? name with
      | some field => simp [Writing.phrase, Phrase.text]
      | none => simp [Writing.phrase, Phrase.text, hword.ident_text]
  | atSign => exact absurd rfl hkind
  | comment newlines | template parts => cases hword.isPlain
  | _ => exact ⟨_, rfl, fun rest => rfl⟩

end

end StoryMarkup.Markup
