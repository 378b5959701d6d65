import EstreeLint.Proofs.Token.Cut
import EstreeLint.Proofs.Token.Decode
import EstreeLint.Proofs.Token.Session

/-!
The value of a token is that of the literal that its text is.

A string is read by a scan; so are the first piece of a template, and its later pieces when a
closing brace is read again. The value of an attribute is not among them: it stands for itself,
with its backslashes, wherever its quote comes right behind the equals sign.
-/

namespace EstreeLint

open Literal

/-! ### Literals between their delimiters -/

namespace Literal

variable {cs : List Char} {c quote : Char}

def IsQuote (c : Char) : Prop := c = '"' ∨ c = '\x27'

instance : DecidablePred IsQuote := fun c => inferInstanceAs (Decidable (c = '"' ∨ c = '\x27'))

/-- The kinds of the pieces of a template, each with what opens and what closes it. -/
def pieces : List (TokenKind × List Char × List Char) :=
  [(.noSubstitutionTemplateLiteral, ['\x60'], ['\x60']),
    (.templateHead, ['\x60'], ['$', '\x7b']),
    (.templateMiddle, ['\x7d'], ['$', '\x7b']),
    (.templateTail, ['\x7d'], ['\x60'])]

/-- Strings and pieces of templates. -/
def isQuoted (k : TokenKind) : Bool := k == .stringLiteral || pieces.any (·.1 == k)

/-- A token without a complaint is a literal between its delimiters, and has its value. -/
structure Cooked (kind : TokenKind) (flags : TokenFlags) (text value : List Char) : Prop where
  string : kind = .stringLiteral → Clean flags → ∃ quote content, IsQuote quote ∧
    text = quote :: (content ++ [quote]) ∧ Value (.string quote) content value
  piece : ∀ opening closing, (kind, opening, closing) ∈ pieces → Clean flags →
    ∃ content, text = opening ++ content ++ closing ∧ Value .template content value

variable {kind : TokenKind} {flags : TokenFlags} {text value : List Char}

lemma cooked_of_not_quoted (h : isQuoted kind = false) : Cooked kind flags text value := by
  simp only [isQuoted, Bool.or_eq_false_iff, beq_eq_false_iff_ne, List.any_eq_false,
    beq_iff_eq] at h
  exact ⟨fun e => absurd e h.1, fun _ _ hmem => absurd rfl (h.2 _ hmem)⟩

/-- Other flags tell less about a token. -/
lemma Cooked.of_clean {flags' : TokenFlags} (h : Cooked kind flags text value)
    (hclean : Clean flags' → Clean flags) : Cooked kind flags' text value where
  string hk hf := h.string hk (hclean hf)
  piece _ _ hmem hf := h.piece _ _ hmem (hclean hf)

lemma isQuoted_of_class {k : TokenKind}
    (h : k.isPunctuation = true ∨ k.isIdentifierOrKeyword = true ∨ k.isTrivia = true) :
    isQuoted k = false := by
  revert h
  cases k <;> decide

/-! ### What is read off the front of a text -/

lemma stringLexeme_cooked (hquote : IsQuote quote) (cs : List Char) :
    Cooked (Quoted.stringLexeme quote false cs).kind (Quoted.stringLexeme quote false cs).flags
      ((quote :: cs).take (Quoted.stringLexeme quote false cs).length)
      (Quoted.stringLexeme quote false cs).value where
  string _ hclean := by
    obtain ⟨content, rest, rfl, hlength, hreads⟩ := stringBody_reads hquote cs hclean
    refine ⟨quote, content, hquote, ?_, hreads, fun es hes hpaired => ?_⟩
    · have htake : (content ++ quote :: rest).take (content.length + 1) = content ++ [quote] := by
        rw [List.take_length_add_append]
        rfl
      simp only [Quoted.stringLexeme, hlength]
      rw [Nat.add_comm 1, List.take_succ_cons, htake]
    · exact (stringBody_of_reads hquote hpaired hes rest).value_eq
  piece _ _ hmem _ := by simp [pieces, Quoted.stringLexeme] at hmem

/-- A piece of a template behind what opens it. -/
lemma templateBody_cooked (cs : List Char) (h : Clean (Quoted.templateBody cs).1.flags) :
    ∃ content, cs.take (Quoted.templateBody cs).1.length =
        content ++ closing (Quoted.templateBody cs).2 ∧
      Value .template content (Quoted.templateBody cs).1.value := by
  obtain ⟨content, rest, hcs, hlength, hreads⟩ := templateBody_reads cs h
  refine ⟨content, ?_, hreads, fun es hes hpaired => ?_⟩
  · have htake : (content ++ closing (Quoted.templateBody cs).2 ++ rest).take
        (content ++ closing (Quoted.templateBody cs).2).length =
        content ++ closing (Quoted.templateBody cs).2 := List.take_left
    rwa [← hcs, List.length_append, ← hlength] at htake
  · have hcooks := templateBody_of_reads hpaired hes (Quoted.templateBody cs).2 rest
    rw [← hcs] at hcooks
    exact hcooks.value_eq

lemma templateStart_cooked (cs : List Char) :
    Cooked (Quoted.templateStart cs).kind (Quoted.templateStart cs).flags
      (('\x60' :: cs).take (Quoted.templateStart cs).length) (Quoted.templateStart cs).value where
  string h _ := by
    simp only [Quoted.templateStart] at h
    split at h <;> cases h
  piece opening ending hmem hclean := by
    obtain ⟨content, htake, hvalue⟩ := templateBody_cooked cs hclean
    refine ⟨content, ?_, hvalue⟩
    have hdelimiters : opening = ['\x60'] ∧ ending = closing (Quoted.templateBody cs).2 := by
      simp only [Quoted.templateStart, pieces] at hmem
      split at hmem <;> simp_all [closing]
    obtain ⟨rfl, rfl⟩ := hdelimiters
    simp only [Quoted.templateStart]
    rw [Nat.add_comm 1, List.take_succ_cons, htake]
    rfl

lemma templateRest_cooked (cs : List Char) :
    Cooked (Quoted.templateRest cs).kind (Quoted.templateRest cs).flags
      (('\x7d' :: cs).take (Quoted.templateRest cs).length) (Quoted.templateRest cs).value where
  string h _ := by
    simp only [Quoted.templateRest] at h
    split at h <;> cases h
  piece opening ending hmem hclean := by
    obtain ⟨content, htake, hvalue⟩ := templateBody_cooked cs hclean
    refine ⟨content, ?_, hvalue⟩
    have hdelimiters : opening = ['\x7d'] ∧ ending = closing (Quoted.templateBody cs).2 := by
      simp only [Quoted.templateRest, pieces] at hmem
      split at hmem <;> simp_all [closing]
    obtain ⟨rfl, rfl⟩ := hdelimiters
    simp only [Quoted.templateRest]
    rw [Nat.add_comm 1, List.take_succ_cons, htake]
    rfl

/-- A token is a quoted one only where a quote or a backtick stands. -/
lemma token_cooked (v : Variant) (c : Char) (cs : List Char) :
    Cooked (Lexeme.token v c cs).kind (Lexeme.token v c cs).flags
      ((c :: cs).take (Lexeme.token v c cs).length) (Lexeme.token v c cs).value := by
  unfold Lexeme.token
  split
  · next h => exact stringLexeme_cooked (by simpa [IsQuote] using h) cs
  split
  · next h =>
    obtain rfl := eq_of_beq h
    exact templateStart_cooked cs
  split
  · refine cooked_of_not_quoted ?_
    simp only [Number.lexeme]
    split <;> rfl
  split
  · exact cooked_of_not_quoted rfl
  split
  · next kind length h =>
    rcases Punctuation.read?_proper h with ⟨hbrace, -⟩ | hproper
    · obtain ⟨rfl, -⟩ := Prod.mk.inj hbrace
      exact cooked_of_not_quoted rfl
    · exact cooked_of_not_quoted (isQuoted_of_class (.inl hproper.1))
  split
  · refine cooked_of_not_quoted ?_
    simp only [Word.lexeme]
    split
    · rfl
    · exact isQuoted_of_class (.inr (.inl (TokenKind.isIdentifierOrKeyword_ofWord _)))
  · exact cooked_of_not_quoted rfl

lemma lexeme_cooked (v : Variant) (c : Cursor) :
    Cooked (c.lexeme v).kind (c.lexeme v).flags (c.rest.take (c.lexeme v).length)
      (c.lexeme v).value := by
  have htrivia {l : Lexeme} (h : l.kind.isTrivia = true) : isQuoted l.kind = false :=
    isQuoted_of_class (.inr (.inr h))
  rcases Cursor.lexeme_cases v c with ⟨-, hl⟩ | ⟨l, -, hs, hl⟩ | ⟨x, cs, -, ht⟩ |
    ⟨x, cs, hrest, -, hl⟩
  · rw [hl]
    exact cooked_of_not_quoted rfl
  · rw [hl]
    exact cooked_of_not_quoted (htrivia (Scanner.shebang?_lexeme hs).1)
  · exact cooked_of_not_quoted (htrivia (Lexeme.trivia?_isTrivia ht).kind)
  · rw [hl, hrest]
    exact token_cooked v x cs

end Literal

/-! ### The token at hand -/

namespace Scanner

variable {text : Source} {v : Variant} {skip : Bool} {s : Scanner} {x y : Session}

/-- The token at hand has the value of the literal that it is. -/
def Cooked (text : Source) (s : Scanner) : Prop :=
  Literal.Cooked s.kind s.flags (Text.slice text s.tokenStart s.tokenEnd) s.value.toList

/-- The text between a place and the one some characters on. -/
lemma slice_advance {c : Cursor} (hon : c.On text) (n : Nat) :
    Text.slice text c.pos (c.advance n).pos = c.rest.take n := by
  obtain ⟨u, htext, hpos⟩ := hon
  have hcut := Text.slice?_append u (c.rest.take n) (c.rest.drop n)
  rw [List.take_append_drop, ← htext, ← hpos] at hcut
  exact congrArg (Option.getD · []) hcut

lemma accept_cooked {c : Cursor} {l : Lexeme} (flags : TokenFlags) (hon : c.On text)
    (h : Literal.Cooked l.kind l.flags (c.rest.take l.length) l.value) :
    Cooked text (s.accept c l flags) := by
  have hvalue : (s.accept c l flags).value.toList = l.value := String.toList_ofList
  have hslice : Text.slice text (s.accept c l flags).tokenStart (s.accept c l flags).tokenEnd =
      c.rest.take l.length := slice_advance hon l.length
  rw [Cooked, hvalue, hslice]
  exact h.of_clean fun hclean => (clean_union.1 hclean).2

lemma scan_cooked (hon : s.cursor.On text) : Cooked text s.scan := by
  obtain ⟨ls, d, hpasses, hscan, -⟩ := scan_eq s
  rw [hscan]
  exact accept_cooked _ (hpasses.on hon) (lexeme_cooked s.variant d)

lemma rescanTemplate_cooked (h : InUse text v skip s) (hk : s.kind = .closeBrace) :
    Cooked text s.rescanTemplate := by
  have hsource : s.source = text := h.alike.source
  obtain ⟨cs, hcs⟩ := List.head?_eq_some_iff.1 (h.placed.brace hk)
  have hafter : Cursor.ofOffset s.source (s.tokenStart + 1) = s.start.advance 1 := by
    have hpos : (s.start.advance 1).pos = s.tokenStart + 1 := by
      simp only [Cursor.advance, hcs, List.take_succ_cons, List.take_zero, Text.bytes]
      rfl
    have hon := (h.start_on.advance 1).suffixAt
    rw [hpos] at hon
    rw [Cursor.ofOffset, hsource, hon, ← hpos]
  have hrest : (s.start.advance 1).rest = cs := by simp [Cursor.advance, hcs]
  have hlength : 1 + ((Quoted.templateRest cs).length - 1) = (Quoted.templateRest cs).length := by
    simp only [Quoted.templateRest]
    omega
  have hcursor : s.rescanTemplate.cursor = s.start.advance (Quoted.templateRest cs).length := by
    simp only [rescanTemplate, hafter, hrest]
    rw [advance_advance, hlength]
  have hslice : Text.slice text s.rescanTemplate.tokenStart s.rescanTemplate.tokenEnd =
      ('\x7d' :: cs).take (Quoted.templateRest cs).length := by
    rw [tokenEnd, hcursor, ← hcs]
    exact slice_advance h.start_on _
  have hlexeme : s.rescanTemplate.kind = (Quoted.templateRest cs).kind ∧
      s.rescanTemplate.value.toList = (Quoted.templateRest cs).value ∧
      s.rescanTemplate.flags = s.flags ∪ (Quoted.templateRest cs).flags := by
    simp only [rescanTemplate, hafter, hrest, String.toList_ofList, and_self]
  obtain ⟨hkind, hvalue, hflags⟩ := hlexeme
  rw [Cooked, hslice, hkind, hvalue, hflags]
  exact (templateRest_cooked cs).of_clean fun hclean => (clean_union.1 hclean).2

/-- The operations that read a literal of the language. The value of an attribute is read as one
only if its quote does not come next. -/
def Session.Decodes (x : Session) : Operation → Prop
  | .scan => True
  | .rescanTemplate => True
  | .scanJsxAttributeValue => ∀ c, x.scanner.cursor.rest.head? = some c → ¬ IsQuote c
  | _ => False

/-- **What has been read as a literal has the value that the language gives it.** -/
theorem Session.Stands.cooked {a : Operation} (h : Session.Stands text v skip x)
    (hdecodes : x.Decodes a) (hstep : x.step? a = some y) : Cooked text y.scanner := by
  have hon := h.scanner.cursor_on
  cases a with
  | scan => exact Option.some.inj hstep ▸ scan_cooked hon
  | rescanTemplate =>
    obtain ⟨hk, hstep⟩ := Option.ite_none_right_eq_some.1 hstep
    exact Option.some.inj hstep ▸ rescanTemplate_cooked h.scanner hk
  | scanJsxAttributeValue =>
    have hscan : x.scanner.scanJsxAttributeValue = x.scanner.scan := by
      unfold scanJsxAttributeValue
      split
      · next c cs hrest =>
        have hnot : ¬ IsQuote c := hdecodes c (by rw [hrest]; rfl)
        rw [if_neg (by simpa [IsQuote] using hnot)]
      · rfl
    refine Option.some.inj hstep ▸ ?_
    rw [Session.read, hscan]
    exact scan_cooked hon
  | rescanGreater | rescanLess | rescanSlash | scanJsxToken | scanJsxIdentifier | save | restore
  | reset => exact hdecodes.elim

end Scanner

/-! ### Writing a text as a string -/

namespace Literal

variable {quote : Char} {content rest cs : List Char}

/-- Between quotes, `content` stands for the text `cs`. -/
def Writes (quote : Char) (content cs : List Char) : Prop :=
  ∃ es, Reads (.string quote) content es ∧ Paired es ∧ unitsOf es = encodeText cs

/-- How one character of a text is written: as itself if it may stand between the quotes. -/
def written (quote c : Char) : Element :=
  if c = quote ∨ c = '\\' then .escaped c
  else if c = '\n' then .escaped 'n'
  else if c = '\r' then .escaped 'r'
  else .plain c

/-- What is written for a character stands for it, whatever comes next. -/
lemma written_fits (hquote : IsQuote quote) (c : Char) (next : Option Char) :
    (written quote c).Fits (.string quote) next ∧ (written quote c).code? = none ∧
      (written quote c).units = encode c.toNat := by
  have hescaped {d : Char} (h : d ≠ 'u' ∧ d ≠ 'x' ∧ [d] ∉ lineBreaks ∧ d ∉ decimalDigits) :
      (Element.escaped d).Fits (.string quote) next :=
    ⟨h.1, h.2.1, h.2.2.1, fun hd => absurd hd h.2.2.2⟩
  unfold written
  split
  · next h =>
    have hc : c = '"' ∨ c = '\x27' ∨ c = '\\' := by
      rcases h with rfl | rfl
      · exact or_assoc.1 (.inl hquote)
      · exact .inr (.inr rfl)
    rcases hc with rfl | rfl | rfl <;> exact ⟨hescaped (by decide), rfl, rfl⟩
  next hplain =>
  split
  · next h => exact ⟨hescaped (by decide), rfl, by rw [h]; rfl⟩
  next hfeed =>
  split
  · next h => exact ⟨hescaped (by decide), rfl, by rw [h]; rfl⟩
  next hreturn =>
  rw [not_or] at hplain
  exact ⟨⟨hplain.1, hplain.2, hfeed, hreturn⟩, rfl, rfl⟩

/-- **Every text can be written between quotes.** -/
theorem exists_writes (hquote : IsQuote quote) (cs : List Char) :
    Writes quote (cs.flatMap fun c => (written quote c).source) cs := by
  induction cs with
  | nil => exact ⟨[], .nil, .nil, rfl⟩
  | cons c cs ih =>
    obtain ⟨es, hreads, hpaired, hunits⟩ := ih
    obtain ⟨hfits, hcode, hvalue⟩ := written_fits hquote c
      (cs.flatMap fun c => (written quote c).source).head?
    refine ⟨written quote c :: es, .cons hfits hreads, .cons (by simp [hcode]) hpaired, ?_⟩
    rw [encodeText_cons, ← hunits, ← hvalue]
    rfl

end Literal

namespace Scanner

variable {text : Source} {v : Variant} {skip : Bool} {s : Scanner} {x y : Session}

/-- A scan at a quote reads a string. -/
lemma scan_quote {quote : Char} {cs : List Char} (hquote : IsQuote quote)
    (hrest : s.cursor.rest = quote :: cs) :
    s.scan = { s with fullStart := s.cursor.pos }.accept ⟨s.cursor.pos, quote :: cs⟩
      (Quoted.stringLexeme quote false cs) {} := by
  have hshebang : Lexeme.shebang? (quote :: cs) = none := by rcases hquote with rfl | rfl <;> rfl
  have hread : Lexeme.read s.variant quote cs = Quoted.stringLexeme quote false cs := by
    rcases hquote with rfl | rfl <;> rfl
  have htrivia : (Quoted.stringLexeme quote false cs).kind.isTrivia = false := rfl
  rw [scan, hrest, scanFrom.eq_def]
  simp only [hshebang, ite_self, Option.getD_none, hread, htrivia, Bool.false_and,
    Bool.false_eq_true, if_false]

/-- **A text that is written between quotes is scanned back.** -/
theorem scan_writes {quote : Char} {content rest cs : List Char} (hquote : IsQuote quote)
    (hwrites : Writes quote content cs)
    (hrest : s.cursor.rest = quote :: (content ++ quote :: rest)) :
    s.scan.kind = .stringLiteral ∧ s.scan.value = String.ofList cs ∧ Clean s.scan.flags ∧
      s.scan.cursor.rest = rest := by
  obtain ⟨es, hreads, hpaired, hunits⟩ := hwrites
  have hcooks := stringBody_of_reads hquote hpaired hreads rest
  have hvalue := encodeText_inj (hcooks.value_eq.trans hunits)
  have hdrop : (content ++ quote :: rest).drop (content.length + 1) = rest := by
    rw [List.drop_length_add_append]
    rfl
  rw [scan_quote hquote hrest]
  refine ⟨rfl, congrArg String.ofList hvalue, clean_union.2 ⟨⟨rfl, rfl⟩, hcooks.clean⟩, ?_⟩
  simp only [accept, Cursor.advance, Quoted.stringLexeme, hcooks.length_eq]
  rw [Nat.add_comm 1, List.drop_succ_cons, hdrop]

/-! ### Every literal of a text -/

/-- **Strings and template pieces have the values that the language gives them**, whatever has been
asked of the scanner before; and a text that is written between quotes is scanned back. -/
theorem literals_cooked {operations : List Operation} {a : Operation}
    (hrun : (Session.start text v skip).run? operations = some x) (hdecodes : x.Decodes a)
    (hstep : x.step? a = some y) :
    Cooked text y.scanner ∧
      ∀ quote, IsQuote quote → ∀ cs, (∃ content, Writes quote content cs) ∧
        ∀ content rest, Writes quote content cs → ∀ s : Scanner,
          s.cursor.rest = quote :: (content ++ quote :: rest) →
            s.scan.kind = .stringLiteral ∧ s.scan.value = String.ofList cs ∧
              Clean s.scan.flags ∧ s.scan.cursor.rest = rest := by
  have hstands := (Session.start_stands text v skip).run operations hrun
  refine ⟨hstands.cooked hdecodes hstep, fun quote hquote cs => ⟨⟨_, exists_writes hquote cs⟩, ?_⟩⟩
  exact fun content rest hwrites s hrest => scan_writes hquote hwrites hrest

/-- A template with a string in its substitution. -/
def templateWithString : Source := "\x60a$\x7b'\\x41\\101' \x7d\\u0063\\\n\x60".toList

/-- Behind the string, the closing brace is read again as the end of the template. -/
theorem templateWithString_cooked :
    ∃ x y, (Session.start templateWithString .standard true).run? [.scan, .scan, .scan] = some x ∧
      x.step? .rescanTemplate = some y ∧ Cooked templateWithString y.scanner ∧
      y.scanner.value = "c" := by
  have hsome : ((Session.start templateWithString .standard true).run? [.scan, .scan, .scan]).any
      (fun x => (x.step? .rescanTemplate).any (·.scanner.value == "c")) = true := by
    decide +kernel
  obtain ⟨x, hx, hread⟩ := (Option.any_eq_true _ _).1 hsome
  obtain ⟨y, hy, hvalue⟩ := (Option.any_eq_true _ _).1 hread
  exact ⟨x, y, hx, hy, (literals_cooked (a := .rescanTemplate) hx trivial hy).1, eq_of_beq hvalue⟩

/-- An element with an attribute whose quote comes right behind the equals sign. -/
def attributeWithEscape : Source := "<a b=\"\\n\"/>".toList

/-- The value of an attribute keeps its backslash, so it is not that of a string. -/
theorem attributeWithEscape_verbatim :
    ∃ x y,
      (Session.start attributeWithEscape .jsx true).run? [.scan, .scan, .scan, .scan] = some x ∧
      x.step? .scanJsxAttributeValue = some y ∧ y.scanner.kind = .stringLiteral ∧
      Clean y.scanner.flags ∧ y.scanner.value = "\\n" ∧ ¬ Cooked attributeWithEscape y.scanner := by
  have hsome : ((Session.start attributeWithEscape .jsx true).run? [.scan, .scan, .scan, .scan]).any
      (fun x => (x.step? .scanJsxAttributeValue).any fun y => y.scanner.kind == .stringLiteral &&
        y.scanner.flags == {} && y.scanner.value == "\\n" &&
        Text.slice attributeWithEscape y.scanner.tokenStart y.scanner.tokenEnd ==
          ['"', '\\', 'n', '"']) = true := by
    decide +kernel
  obtain ⟨x, hx, hread⟩ := (Option.any_eq_true _ _).1 hsome
  obtain ⟨y, hy, hfacts⟩ := (Option.any_eq_true _ _).1 hread
  simp only [Bool.and_eq_true, beq_iff_eq] at hfacts
  obtain ⟨⟨⟨hkind, hflags⟩, hvalue⟩, hslice⟩ := hfacts
  have hclean : Clean y.scanner.flags := hflags ▸ ⟨rfl, rfl⟩
  refine ⟨x, y, hx, hy, hkind, hclean, hvalue, fun hcooked => ?_⟩
  obtain ⟨quote, content, -, htext, -, hagrees⟩ := hcooked.string hkind hclean
  obtain ⟨rfl, hcontent⟩ := List.cons.inj (hslice.symm.trans htext)
  obtain rfl : ['\\', 'n'] = content :=
    List.append_cancel_right (hcontent : ['\\', 'n'] ++ ['"'] = content ++ ['"'])
  have hreads : Reads (.string '"') ['\\', 'n'] [.escaped 'n'] :=
    .cons (e := .escaped 'n') ⟨by decide, by decide, by decide, by decide⟩ .nil
  have hunits := hagrees _ hreads (.cons (by simp [Element.code?]) .nil)
  rw [hvalue] at hunits
  exact absurd hunits (by decide +kernel)

end Scanner

end EstreeLint
