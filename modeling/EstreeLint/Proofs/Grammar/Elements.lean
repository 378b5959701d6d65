import EstreeLint.Grammar.Element
import EstreeLint.Proofs.Grammar.Expressions

/-!
What the rules for elements build. The tokens between tags are read in a way of their own, and a
text between tags is a leaf that starts where the token before it stops.
-/

namespace EstreeLint.Grammar

open Parse
open Estree (Usable Supplied Needs usable_of_token usable_of_form)

variable {text : Source} {R : Runner} {m : Mark} {ns : List Node} {K : Scanner → Prop}

section Peeks

instance (opening closing : Node) : Peeks (checkTags opening closing) := by
  unfold checkTags
  infer_instance

end Peeks

/-! ### Tokens between tags -/

instance nextText_builds : Builds text R (fun σ => σ.kind ≠ .endOfFile) nextText fun _ => True := by
  refine ⟨fun m => ?_⟩
  unfold nextText
  rw [← bind_pure (takeWith _)]
  exact .takeWith (fun σ h _ _ => ⟨h.scanJsxToken, σ.scanJsxToken_fullStart⟩) (.pure rfl trivial)

lemma expectClosing_builds (k : TokenKind) (inExpression : Bool)
    (hk : k ≠ .endOfFile := by decide) :
    Builds text R Anywhere (expectClosing k inExpression) fun _ => True := by
  refine ⟨fun m => ?_⟩
  refine .ite (fun _ => .last (expecting_builds (K := Anywhere) k hk)) fun _ => ?_
  refine .isAt ?_ (.expect_missing fun _ h => h.2)
  exact .last nextText_builds (fun _ h => h) (by simp; grind)

/-- A text between tags is a leaf. -/
instance textChild_builds :
    Builds text R (fun σ => σ.kind.isElementText = true) textChild Usable := by
  refine ⟨fun m he s hs ⟨hk, _⟩ hc => ?_⟩
  have hne : s.scanner.kind ≠ .endOfFile := by
    intro h
    rw [h] at hk
    exact absurd hk (by decide)
  have hfull := s.scanner.scanJsxToken_fullStart
  have hstart := hs.sound.tokenStart_eq
  rw [if_pos hk] at hstart
  refine ⟨Since.of_eq (s := s.after Scanner.scanJsxToken) ?_ rfl rfl,
    usable_of_token rfl (by decide)⟩
  refine hs.take hs.sound.scanJsxToken hfull ?_
  exact .leaf (k := .jsxText) rfl rfl rfl hfull hstart (hs.behind hne) (.nil _)

/-! ### Names -/

instance hyphenatedName_builds :
    Builds text R Anywhere hyphenatedName fun n => n.kind = .token .identifier := by
  refine ⟨fun m => ?_⟩
  exact .reread (f := fun _ => identifierName) rereads_identifier fun _ =>
    .last identifierName_builds

/-- The name of an attribute or a tag, with all that it needs. -/
structure IsJsxName (n : Node) : Prop where
  usable : Usable n
  asAttribute : Supplied (Needs.jsxName n)
  asTag : Supplied (Needs.tagName n)

lemma isJsxName_of_token {n : Node} {k : TokenKind} (h : n.kind = .token k) (hu : Usable n) :
    IsJsxName n := by
  have hname : Needs.jsxName n = [] := by simp [Needs.jsxName, Tree.isForm, h]
  refine ⟨hu, hname ▸ Estree.met_nil, ?_⟩
  obtain ⟨label, parts⟩ := n
  change label.kind = _ at h
  unfold Needs.tagName
  simp only [h]
  exact hname ▸ Estree.met_nil

lemma namespacedRest_goes {namespaceName : Node} (hspace : Usable namespaceName) :
    Goes text R m [namespaceName] K (namespacedRest m.pos namespaceName) nodesIn IsJsxName := by
  refine .expect_ (.sub hyphenatedName_builds fun name hname => ?_)
  have hu := usable_of_identifier hname
  refine .finish (Estree.fits_of_enough ?_) fun id stop => ?_
  · unfold Estree.enough
    simp_all
  · have hsupplied : Supplied (Needs.jsxName (.ofParts id (.form .jsxNamespacedName) m.pos stop {}
        [.one .namespaceName namespaceName, .one .name name])) := by
      simp [Needs.jsxName, Tree.isForm, Node.part?_ofParts, Needs.fact]
    exact ⟨usable_of_form rfl (by decide), hsupplied, hsupplied⟩

instance tagName_builds :
    Builds text R Anywhere tagName fun n => Usable n ∧ Supplied (Needs.tagName n) := by
  have hthis : Builds text R (At .thisKw) tokenNode IsJsxName :=
    (tokenNode_at .thisKw).mono fun n hn => isJsxName_of_token hn (usable_of_token hn (by decide))
  have hname : Builds text R Anywhere identifierName IsJsxName :=
    identifierName_builds.mono fun n hn => isJsxName_of_token hn (usable_of_identifier hn)
  refine ⟨fun m => ?_⟩
  refine .start ?_
  refine .reread (f := fun _ => _) rereads_identifier fun _ =>
    .chooseIf hthis hname fun first hfirst => ?_
  refine .askIf ?_ ?_
  · exact (namespacedRest_goes hfirst.usable).mono (fun _ h => h) fun _ h => ⟨h.usable, h.asTag⟩
  refine iterate_goes _ _ ⟨hfirst.usable, hfirst.asTag⟩ fun e he => ?_
  refine .acceptIf (.sub identifierName_usable fun name hname => ?_) (.pure (by simp) (by simp))
  obtain ⟨hu, htag⟩ := he
  refine .finishThen (Estree.fits_of_enough ?_) fun id stop => .pure rfl ?_
  · unfold Estree.enough Estree.wants
    simp_all
  · simp only [Option.mem_some_iff, forall_eq']
    refine ⟨usable_of_form rfl (by decide), ?_⟩
    change Supplied (Needs.tagName (e.withRole .expression))
    rwa [Estree.tagName_withRole]

variable [Reaches text R]

/-! ### Attributes -/

instance embedded_builds (inExpression : Bool) :
    Builds text R Anywhere (embedded inExpression) Usable := by
  refine ⟨fun m => ?_⟩
  refine .start (.expect_ (.askIf (.pureThen ?_) ?_))
  · exact .sub (expectClosing_builds _ _) fun _ _ => .build
  · refine .sub (optionalToken_builds _) fun dots _ =>
      .sub expression_builds fun e he => .pureThen ?_
    exact .sub (expectClosing_builds _ _) fun _ _ => .build

instance attributeValue_builds :
    Builds text R (At .equals) attributeValue fun o => ∀ n ∈ o, Usable n := by
  refine ⟨fun m => ?_⟩
  refine .takeWith (fun σ h he _ =>
    ⟨h.scanJsxAttributeValue he, σ.scanJsxAttributeValue_fullStart⟩) ?_
  refine .token fun k => ?_
  split
  · refine .sub (literal_usable [.stringLiteral]) fun n hn => .pure (by simp) (by simpa using hn)
  · refine .sub (embedded_builds _) fun n hn => .pure (by simp) (by simpa using hn)
  · refine .sub (reach_builds _) fun n hn => .pure (by simp) (by simpa using hn)
  · exact .error

instance spreadAttribute_builds : Builds text R Anywhere spreadAttribute Usable := by
  refine ⟨fun m => ?_⟩
  exact .start (.expect_ (.expect_ (.sub expression_builds fun e he => .expect_ .build)))

lemma attributeRest_goes {name : Node} (hname : IsJsxName name) :
    Goes text R m [name] K (attributeRest m.pos name) nodesIn Usable := by
  have hnone : Builds text R K (pure none) fun o : Option Node => ∀ n ∈ o, Usable n :=
    .pure rfl (by simp)
  refine .chooseIf attributeValue_builds hnone fun value hvalue => ?_
  exact .buildAs (Estree.fits_attribute hname.asAttribute hvalue)

instance jsxAttribute_builds : Builds text R Anywhere jsxAttribute fun o => ∀ n ∈ o, Usable n := by
  refine ⟨fun m => ?_⟩
  refine .start (.askIf (.sub spreadAttribute_builds fun n hn => ?_) (.look fun b => ?_))
  · exact .pure (by simp) (by simpa using hn)
  refine .ite (fun _ => .error) fun _ => .sub hyphenatedName_builds fun plain hplain => ?_
  have hu := usable_of_identifier hplain
  refine .askIf (.bind (namespacedRest_goes hu) fun name hname => ?_) ?_
  · exact .bind (attributeRest_goes hname) fun n hn => .pure rfl (by simpa using hn)
  · refine .bind (attributeRest_goes (isJsxName_of_token hplain hu)) fun n hn => ?_
    exact .pure rfl (by simpa using hn)

instance jsxAttributes_builds :
    Builds text R Anywhere jsxAttributes fun n => ∀ e ∈ n.partsOf .element, Usable e := by
  refine ⟨fun m => ?_⟩
  refine .start (.sub (listUntil_builds jsxAttribute_builds) fun l hl => ?_)
  refine .finish (Estree.fits_unruled (by decide)) fun id stop => ?_
  simpa [Node.partsOf_ofParts] using hl

/-! ### Tags and children -/

instance openingTag_builds (inExpression : Bool) :
    Builds text R Anywhere (openingTag inExpression) Usable := by
  refine ⟨fun m => ?_⟩
  refine .start (.expect_ (.askIf (.sub nextText_builds fun _ _ => .build) ?_))
  refine .sub tagName_builds fun name hname => .askSome typeArguments_builds fun args hargs => ?_
  have hall : ∀ n ∈ nodesIn args, Usable n := by cases args <;> simp_all
  refine .sub jsxAttributes_builds fun list hlist => ?_
  have hfits {f : Form} (hf : f = .jsxOpeningElement ∨ f = .jsxSelfClosingElement) :
      Estree.Fits f [.one .tagName name, .optional .typeArgument args, .one .attributes list] {} :=
    Estree.fits_tag hf (by simp) hname.2 (by simpa using hall) (by simpa using hlist)
  refine .askIf (.sub nextText_builds fun _ _ => .buildAs (hfits (.inl rfl))) (.expect_ ?_)
  exact .sub (expectClosing_builds _ _) fun _ _ => .buildAs (hfits (.inr rfl))

omit [Reaches text R] in
instance closingTag_builds (inExpression : Bool) :
    Builds text R Anywhere (closingTag inExpression) Usable := by
  refine ⟨fun m => ?_⟩
  refine .start (.acceptIf (.askIf ?_ ?_) .build)
  · exact .sub (expectClosing_builds _ _) fun _ _ => .build
  · refine .sub tagName_builds fun name hname => .sub (expectClosing_builds _ _) fun _ _ => ?_
    exact .buildAs (Estree.fits_closingTag hname.2)

instance child_builds (opening : Node) :
    Builds text R Anywhere (child opening) fun o => ∀ n ∈ o, Usable n := by
  refine ⟨fun m => ?_⟩
  refine .token fun k => ?_
  split
  · exact .pure rfl (by simp)
  · exact .pure rfl (by simp)
  iterate 2
    refine .sub textChild_builds (fun n hn => .pure (by simp) (by simpa using hn)) ?_
    rintro σ ⟨-, h⟩
    rw [h]
    decide
  · exact .sub (embedded_builds _) fun n hn => .pure (by simp) (by simpa using hn)
  · exact .sub (reach_builds _) fun n hn => .pure (by simp) (by simpa using hn)
  · exact .look fun _ => .pure rfl (by simp)

lemma elementRest_goes {form : Form} {opening : Node} {inExpression : Bool}
    (hopening : Usable opening)
    (hform : form = .jsxElement ∨ form = .jsxFragment) :
    Goes text R m [opening] K (elementRest form m.pos opening inExpression) nodesIn Usable := by
  refine .look fun childrenStart => ?_
  refine .sub (many_builds Usable (child_builds opening)) (fun l hl => ?_) fun _ _ => trivial
  refine .listFrom fun span => .sub (closingTag_builds _) fun closing hclosing => .look fun _ => ?_
  rcases hform with rfl | rfl
  · exact .build
  · exact .build

instance element_builds (inExpression : Bool) :
    Builds text R Anywhere (element inExpression) Usable := by
  refine ⟨fun m => ?_⟩
  refine .start (.sub (openingTag_builds _) fun opening hopening => ?_)
  cases hopened : opened? opening with
  | none => exact .pure (by simp) hopening
  | some form =>
    refine elementRest_goes hopening ?_
    unfold opened? at hopened
    split at hopened <;> simp_all

end EstreeLint.Grammar
