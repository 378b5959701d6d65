import EstreeLint.Lint.Directive
import EstreeLint.Lint.Pass
import EstreeLint.Lint.RuleTest
import EstreeLint.Proofs.Except
import EstreeLint.Proofs.Lint.Splice
import EstreeLint.Proofs.Text.Split

/-!
What scripts of directives say, what passes with rules make of a text, and what tests of rules
check.

A script is read line by line, and a directive that is written down is read back. The directives of
a script report one after the other, each on every identifier with its name. A pass is over the text
that the one before it has left, and when a pass changes nothing, neither do those behind it. A test
reports nothing exactly when every case is as it says, and what it reports says which case and which
error is meant.
-/

namespace EstreeLint.Lint

open Text (Solid words split trim)

variable {ds : List Directive} {d : Directive}

namespace Directive

/-! ### Scripts -/

lemma parse_ofList (cs : List Char) : parse (String.ofList cs) =
    List.flatten <$> ((split (· == '\n') cs).map trim).mapM ofLine := by
  rw [parse, String.toList_ofList]
  rfl

/-- **A script is read line by line.** -/
theorem parse_append (u v : List Char) : parse (String.ofList (u ++ '\n' :: v)) = do
    let us ← parse (String.ofList u)
    let vs ← parse (String.ofList v)
    return us ++ vs := by
  simp only [parse_ofList, Text.split_append (p := (· == '\n')) (c := '\n') rfl, List.map_append,
    List.mapM_append]
  cases ((split (· == '\n') u).map trim).mapM ofLine with
  | error e => rfl
  | ok us =>
    cases ((split (· == '\n') v).map trim).mapM ofLine with
    | error e => rfl
    | ok vs => exact congrArg Except.ok List.flatten_append

/-- A directive as words. -/
def toWords : Directive → List (List Char)
  | .ban name => ["ban".toList, name.toList]
  | .rename old new => ["rename".toList, old.toList, new.toList]
  | .suggest old new => ["suggest".toList, old.toList, new.toList]
  | .explode name => ["explode".toList, name.toList]

/-- A directive as a line. -/
def toLine (d : Directive) : List Char := List.intercalate [' '] d.toWords

/-- The names of a directive are words. -/
def Writable (d : Directive) : Prop := ∀ w ∈ d.toWords, Solid w ∧ w ≠ []

lemma ofWords?_toWords (d : Directive) : ofWords? (d.toWords.map String.ofList) = some d := by
  cases d <;> simp [toWords, ofWords?]

lemma ofLine_toLine (h : d.Writable) : ofLine (trim d.toLine) = .ok [d] := by
  have hletter : d.toLine ≠ [] ∧ d.toLine.head? ≠ some '#' := by
    cases d <;> simp [toLine, toWords, List.intercalate_cons_cons]
  -- The line has a first letter, and it is none of those that say nothing.
  rw [toLine, Text.trim_intercalate h, ← toLine, ofLine, toLine, Text.words_intercalate h,
    ofWords?_toWords, ← toLine]
  simp [hletter.1, hletter.2]

lemma split_toLine (h : d.Writable) : split (· == '\n') d.toLine = [d.toLine] := by
  refine Text.split_eq_singleton fun c hc => beq_eq_false_iff_ne.2 ?_
  rintro rfl
  have hblank := Text.not_isWhiteSpace_of_mem_intercalate (fun w hw => (h w hw).1) hc
  revert hblank
  decide

lemma parse_toLine (h : d.Writable) : parse (String.ofList d.toLine) = .ok [d] := by
  rw [parse_ofList, split_toLine h, List.map_singleton, List.mapM_cons, ofLine_toLine h]
  rfl

/-- **Directives that are written line by line are read back.** -/
theorem parse_toLines {ds : List Directive} (h : ∀ d ∈ ds, d.Writable) :
    parse (String.ofList (List.intercalate ['\n'] (ds.map toLine))) = .ok ds := by
  induction ds with
  | nil => rfl
  | cons d ds ih =>
    obtain ⟨hd, hds⟩ := List.forall_mem_cons.1 h
    cases ds with
    | nil => simpa using parse_toLine hd
    | cons d' ds =>
      rw [List.map_cons, List.map_cons, List.intercalate_cons_cons, List.append_assoc,
        List.singleton_append, parse_append, parse_toLine hd, ← List.map_cons, ih hds]
      rfl

/-! ### Reports -/

variable {program : EsNode} {r : Report}

lemma reportFor_cases (d : Directive) (n : EsNode) :
    (∃ name, d = .explode name) ∨ ∃ r, d.reportFor n = .ok r := by
  cases d with
  | explode name => exact .inl ⟨name, rfl⟩
  | _ => exact .inr ⟨_, rfl⟩

/-- An identifier that a directive is about. -/
def Names (program : EsNode) (d : Directive) (n : EsNode) : Prop :=
  n ∈ identifiers program ∧ n.name? = some d.subject

lemma mem_named {n : EsNode} :
    n ∈ (identifiers program).filter (·.name? == some d.subject) ↔ Names program d n := by
  rw [List.mem_filter, beq_iff_eq, Names]

/-- A directive has its say unless it is one that fails, and the name that it is about stands in the
program. -/
lemma exists_reports_iff : (∃ rs, reports program d = .ok rs) ↔
    ∀ name, d = .explode name → ∀ n, ¬ Names program d n := by
  rw [reports, exists_mapM_eq_ok_iff]
  simp only [mem_named]
  constructor
  · rintro h name rfl n hn
    obtain ⟨r, hr⟩ := h n hn
    cases hr
  · intro h n hn
    rcases reportFor_cases d n with ⟨name, rfl⟩ | hr
    · exact absurd hn (h name rfl n)
    · exact hr

end Directive

namespace Host

open Directive

variable {s : Subject} {rs : List Report} {r : Report}

lemma evaluate_eq (ds : List Directive) (s : Subject) : (ofDirectives ds).evaluate s =
    List.flatten <$> ds.mapM (reports s.program) := rfl

/-- **Directives fail together** if one of them fails: if a name that must not be there is. -/
theorem exists_evaluate_iff : (∃ rs, (ofDirectives ds).evaluate s = .ok rs) ↔
    ∀ name, .explode name ∈ ds → ∀ n, ¬ Names s.program (.explode name) n := by
  simp only [evaluate_eq, map_eq_ok_iff, exists_comm, exists_and_left, exists_eq', and_true]
  rw [exists_mapM_eq_ok_iff]
  simp only [exists_reports_iff]
  constructor
  · exact fun h name hd => h _ hd name rfl
  · rintro h _ hd name rfl
    exact h name hd

/-- **What directives report**: each of them something on every identifier with its name. -/
theorem mem_evaluate_iff (h : (ofDirectives ds).evaluate s = .ok rs) :
    r ∈ rs ↔ ∃ d ∈ ds, ∃ n, Names s.program d n ∧ d.reportFor n = .ok r := by
  rw [evaluate_eq, map_eq_ok_iff] at h
  obtain ⟨rss, hrss, rfl⟩ := h
  rw [List.mem_flatten]
  constructor
  · rintro ⟨rs, hrs, hr⟩
    obtain ⟨d, hd, hreports⟩ := (mem_of_mapM_eq_ok hrss).1 hrs
    obtain ⟨n, hn, hreport⟩ := (mem_of_mapM_eq_ok hreports).1 hr
    exact ⟨d, hd, n, mem_named.1 hn, hreport⟩
  · rintro ⟨d, hd, n, hn, hreport⟩
    obtain ⟨rs, hreports⟩ := exists_mapM_eq_ok_iff.1 ⟨_, hrss⟩ d hd
    exact ⟨rs, (mem_of_mapM_eq_ok hrss).2 ⟨d, hd, hreports⟩,
      (mem_of_mapM_eq_ok hreports).2 ⟨n, mem_named.2 hn, hreport⟩⟩

end Host

/-! ### Passes -/

namespace Pass

variable {host : Host} {file : String} {text : Source} {pass : Pass}

/-- The text behind a number of passes, if none of them fails. -/
def textAfter (host : Host) (file : String) : Nat → Source → Option Source
  | 0, text => some text
  | n + 1, text =>
    match ofText host file text with
    | .error _ => none
    | .ok pass => textAfter host file n pass.fixed.text

/-- **A pass is over the text that the passes before it have left.** -/
theorem getElem?_many {n i : Nat} (h : i < n) : (many host file n text)[i]? =
    (textAfter host file i text).map (ofText host file) := by
  induction n generalizing i text with
  | zero => cases h
  | succ n ih =>
    rw [many]
    cases i with
    | zero =>
      rw [textAfter, Option.map_some]
      cases ofText host file text <;> rfl
    | succ i =>
      rw [textAfter]
      cases ofText host file text with
      | error e => simp
      | ok pass => exact ih (Nat.lt_of_succ_lt_succ h)

lemma length_many_le (n : Nat) (text : Source) : (many host file n text).length ≤ n := by
  induction n generalizing text with
  | zero => exact Nat.le_refl 0
  | succ n ih =>
    rw [many]
    cases ofText host file text with
    | error e => exact Nat.succ_le_succ (Nat.zero_le n)
    | ok pass => exact Nat.succ_le_succ (ih _)

/-- A text is left alone where no fix is put in. -/
lemma text_of_unapplied (h : ofText host file text = .ok pass) (hnone : pass.fixed.applied = 0) :
    pass.fixed.text = text := by
  rw [ofText] at h
  split at h
  · cases h
  obtain rfl := Except.ok.inj h
  have hnil := List.length_eq_zero_iff.1 hnone
  simp only [Fixed.ofDiagnostics, Fixed.ofFixes, hnil, Fix.splice, Text.suffixAt_zero]

/-- **Passes that put in nothing are all the same.** -/
theorem many_of_unapplied (n : Nat) (h : ofText host file text = .ok pass)
    (hnone : pass.fixed.applied = 0) : many host file n text = List.replicate n (.ok pass) := by
  induction n with
  | zero => rfl
  | succ n ih =>
    rw [many, h, List.replicate_succ, ← ih]
    exact congrArg (_ :: many host file n ·) (text_of_unapplied h hnone)

end Pass

namespace RuleTest

variable {host : Host} {file : SourceFile} {code : Source} {position : Nat} {what : Aspect}

/-! ### The errors of a test -/

lemma compare_eq_nil_iff {expected : Option String} {actual : String} :
    compare position what expected actual = [] ↔ ∀ e ∈ expected, e = actual := by
  cases expected with
  | none => simp [compare]
  | some e => simp [compare]

lemma eq_of_repr {m n : Nat} (h : m.repr = n.repr) : m = n := by
  have hdigits : Nat.toDigits 10 m = Nat.toDigits 10 n := by simpa using congrArg String.toList h
  have hvalue := congrArg (Nat.ofDigitChars 10 · 0) hdigits
  simpa only [Nat.ofDigitChars_ten_toDigits] using hvalue

lemma compareNumber_eq_nil_iff {expected : Option Nat} {actual : Nat} :
    compareNumber position what expected actual = [] ↔ ∀ n ∈ expected, n = actual := by
  rw [compareNumber, compare_eq_nil_iff]
  cases expected with
  | none => simp
  | some n =>
    simp only [Option.map_some, Option.mem_def, Option.some.injEq, forall_eq']
    exact ⟨eq_of_repr, congrArg toString⟩

/-- A suggestion is the one that is expected. -/
structure SuggestionMeets (code : Source) (expected : ExpectedSuggestion) (found : Suggestion) :
    Prop where
  messageId : ∀ id ∈ expected.messageId, id = found.message.id
  output : String.ofList (Fixed.ofFixes code found.fixes).text = expected.output

lemma checkSuggestion_eq_nil_iff {expected : ExpectedSuggestion} {found : Suggestion} :
    checkSuggestion code position expected found = [] ↔ SuggestionMeets code expected found := by
  rw [checkSuggestion]
  cases hid : compare position .suggestionId expected.messageId found.message.id with
  | nil =>
    rw [compare_eq_nil_iff] at hid
    simp only [ite_eq_left_iff, beq_iff_eq, List.cons_ne_nil, imp_false, not_not]
    exact ⟨fun h => ⟨hid, h⟩, fun h => h.output⟩
  | cons m ms =>
    refine ⟨fun h => (by cases h), fun h => ?_⟩
    rw [compare_eq_nil_iff.2 h.messageId] at hid
    cases hid

lemma checkSuggestions_eq_nil_iff {expected : List ExpectedSuggestion} {found : List Suggestion} :
    checkSuggestions code position expected found = [] ↔
      List.Forall₂ (SuggestionMeets code) expected found := by
  rw [checkSuggestions, List.forall₂_iff_zip]
  split
  · next hlength =>
    rw [List.flatMap_eq_nil_iff]
    simp only [beq_iff_eq] at hlength
    simp only [hlength, true_and, Prod.forall]
    exact ⟨fun h e s hmem => checkSuggestion_eq_nil_iff.1 (h e s hmem),
      fun h e s hmem => checkSuggestion_eq_nil_iff.2 (h hmem)⟩
  · next hlength =>
    refine ⟨fun h => (by cases h), fun h => absurd (beq_iff_eq.2 h.1) hlength⟩

/-- An error is the one that is expected, in all that is given of it. -/
structure ErrorMeets (file : SourceFile) (expected : ExpectedError) (found : Diagnostic) :
    Prop where
  messageId : ∀ id ∈ expected.messageId, id = found.message.id
  message : ∀ m ∈ expected.message, m = found.message.description
  line : ∀ n ∈ expected.line, n = (file.lines.positionOf file.text found.range.start).line + 1
  column : ∀ n ∈ expected.column,
    n = (file.lines.positionOf file.text found.range.start).character + 1
  endLine : ∀ n ∈ expected.endLine,
    n = (file.lines.positionOf file.text found.range.stop).line + 1
  endColumn : ∀ n ∈ expected.endColumn,
    n = (file.lines.positionOf file.text found.range.stop).character + 1
  suggestions : List.Forall₂ (SuggestionMeets file.text) expected.suggestions found.suggestions

lemma checkError_eq_nil_iff {expected : ExpectedError} {found : Diagnostic} :
    checkError file position expected found = [] ↔ ErrorMeets file expected found := by
  simp only [checkError, List.append_eq_nil_iff, compare_eq_nil_iff, compareNumber_eq_nil_iff,
    checkSuggestions_eq_nil_iff]
  constructor
  · rintro ⟨⟨⟨⟨⟨⟨hid, hmessage⟩, hline⟩, hcolumn⟩, hendLine⟩, hendColumn⟩, hsuggestions⟩
    exact ⟨hid, hmessage, hline, hcolumn, hendLine, hendColumn, hsuggestions⟩
  · rintro ⟨hid, hmessage, hline, hcolumn, hendLine, hendColumn, hsuggestions⟩
    exact ⟨⟨⟨⟨⟨⟨hid, hmessage⟩, hline⟩, hcolumn⟩, hendLine⟩, hendColumn⟩, hsuggestions⟩

/-- **What is said of errors** is said of one expected error and of the one found in its place. -/
theorem mem_checkErrors_iff {m : Mismatch} {es : List ExpectedError} {ds : List Diagnostic} :
    m ∈ checkErrors file position es ds ↔
      ∃ i e d, es[i]? = some e ∧ ds[i]? = some d ∧ m ∈ checkError file (position + i) e d := by
  induction es generalizing position ds with
  | nil => simp [checkErrors]
  | cons e es ih =>
    cases ds with
    | nil => simp [checkErrors]
    | cons d ds =>
      rw [checkErrors, List.mem_append, ih]
      constructor
      · rintro (h | ⟨i, e', d', he, hd, h⟩)
        · exact ⟨0, e, d, rfl, rfl, h⟩
        · exact ⟨i + 1, e', d', he, hd, by rwa [Nat.add_comm i, ← Nat.add_assoc]⟩
      · rintro ⟨i, e', d', he, hd, h⟩
        cases i with
        | zero =>
          obtain rfl := Option.some.inj he
          obtain rfl := Option.some.inj hd
          exact .inl h
        | succ i =>
          exact .inr ⟨i, e', d', he, hd, by rwa [Nat.add_assoc, Nat.add_comm 1]⟩

lemma checkErrors_eq_nil_iff {es : List ExpectedError} {ds : List Diagnostic}
    (hlength : ds.length = es.length) : checkErrors file position es ds = [] ↔
      List.Forall₂ (ErrorMeets file) es ds := by
  induction es generalizing position ds with
  | nil =>
    obtain rfl := List.length_eq_zero_iff.1 hlength
    simp [checkErrors]
  | cons e es ih =>
    obtain ⟨d, ds, rfl⟩ := List.exists_cons_of_length_eq_add_one hlength
    rw [checkErrors, List.append_eq_nil_iff, checkError_eq_nil_iff, List.forall₂_cons,
      ih (Nat.succ.inj hlength)]

/-! ### The cases of a test -/

/-- A case finds what it expects. -/
structure CaseMeets (c : InvalidCase) (file : SourceFile) (found : List Diagnostic) : Prop where
  errors : List.Forall₂ (ErrorMeets file) c.errors found
  output : ∀ e ∈ c.output, e = String.ofList (Fixed.ofDiagnostics file.text found).text
  unfixed : c.output = none → (Fixed.ofDiagnostics file.text found).applied = 0

lemma checkOutput_eq_nil_iff {expected : Option String} {fixed : Fixed} :
    checkOutput expected fixed = [] ↔ (∀ e ∈ expected, e = String.ofList fixed.text) ∧
      (expected = none → fixed.applied = 0) := by
  cases expected with
  | none => simp [checkOutput, Fixed.anyApplied]
  | some e => simp [checkOutput]

lemma checkInvalid_eq_nil_iff {c : InvalidCase} {found : List Diagnostic} :
    checkInvalid c file found = [] ↔ CaseMeets c file found := by
  rw [checkInvalid]
  split
  · next hlength =>
    refine ⟨fun h => (by cases h), fun h => ?_⟩
    exact absurd h.errors.length_eq.symm (by simpa using hlength)
  · next hlength =>
    have hlength : found.length = c.errors.length := by simpa using hlength
    rw [List.append_eq_nil_iff, checkOutput_eq_nil_iff, checkErrors_eq_nil_iff hlength]
    exact ⟨fun h => ⟨h.2, h.1.1, h.1.2⟩, fun h => ⟨⟨h.output, h.unfixed⟩, h.errors⟩⟩

lemma runValid_eq_nil_iff {c : ValidCase} : runValid host c = [] ↔
    lintFile host (fileOf c.code c.fileName) = .ok [] := by
  rw [runValid]
  split <;> simp_all

lemma runInvalid_eq_nil_iff {c : InvalidCase} : runInvalid host c = [] ↔
    ∃ found, lintFile host (fileOf c.code c.fileName) = .ok found ∧
      CaseMeets c (fileOf c.code c.fileName) found := by
  rw [runInvalid]
  cases hfound : lintFile host (fileOf c.code c.fileName) with
  | error e => simp
  | ok found => simpa using checkInvalid_eq_nil_iff

lemma forall_zipIdx {α : Type} {as : List α} {p : α → Prop} :
    (∀ x ∈ as.zipIdx, p x.1) ↔ ∀ a ∈ as, p a := by
  conv_rhs => rw [← List.zipIdx_map_fst 0 as]
  exact List.forall_mem_map.symm

/-- **Tests pass exactly when every case is met**: nothing is found in a valid one, and what is
expected is found in an invalid one. -/
theorem run_eq_nil_iff {valid : List ValidCase} {invalid : List InvalidCase} :
    run host valid invalid = [] ↔
      (∀ c ∈ valid, lintFile host (fileOf c.code c.fileName) = .ok []) ∧
      ∀ c ∈ invalid, ∃ found, lintFile host (fileOf c.code c.fileName) = .ok found ∧
        CaseMeets c (fileOf c.code c.fileName) found := by
  simp only [← runValid_eq_nil_iff, ← runInvalid_eq_nil_iff]
  rw [run, List.append_eq_nil_iff, List.flatMap_eq_nil_iff, List.flatMap_eq_nil_iff]
  simp only [List.map_eq_nil_iff]
  exact and_congr (forall_zipIdx (p := fun c => runValid host c = []))
    (forall_zipIdx (p := fun c => runInvalid host c = []))

/-- **A failure says which case has failed.** -/
theorem mem_run_iff {valid : List ValidCase} {invalid : List InvalidCase} {f : CaseFailure} :
    f ∈ run host valid invalid ↔ match f.kind with
      | .valid => ∃ c, valid[f.index]? = some c ∧ f.code = c.code ∧ f.reason ∈ runValid host c
      | .invalid =>
        ∃ c, invalid[f.index]? = some c ∧ f.code = c.code ∧ f.reason ∈ runInvalid host c := by
  simp only [run, List.mem_append, List.mem_flatMap, List.mem_map, Prod.exists,
    List.mk_mem_zipIdx_iff_getElem?]
  constructor
  · rintro (⟨c, i, hc, reason, hreason, rfl⟩ | ⟨c, i, hc, reason, hreason, rfl⟩)
    all_goals exact ⟨c, hc, rfl, hreason⟩
  · obtain ⟨kind, i, code, reason⟩ := f
    cases kind with
    | valid =>
      rintro ⟨c, hc, rfl, hreason⟩
      exact .inl ⟨c, i, hc, reason, hreason, rfl⟩
    | invalid =>
      rintro ⟨c, hc, rfl, hreason⟩
      exact .inr ⟨c, i, hc, reason, hreason, rfl⟩

end RuleTest

end EstreeLint.Lint
