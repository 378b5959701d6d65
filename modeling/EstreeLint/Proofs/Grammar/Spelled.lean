import EstreeLint.Grammar.State
import EstreeLint.Proofs.Estree.Fits
import EstreeLint.Proofs.Token.Sound

/-!
Nodes and the tokens they are spelled with.

`Spelled text p ns ts q` says that the tokens `ts` stand in the text from `p` to `q`, and that the
nodes `ns` stand there one after another. A leaf is one of the tokens, a node of a form holds what
its parts are spelled with, and any token may belong to no node. Each node of a form in it is fit
to be converted.
-/

namespace EstreeLint.Grammar

open Estree (Usable Fit)

/-- The token lies behind `p` in the text and is not empty. -/
structure Taken.Behind (text : Source) (p : Nat) (t : Taken) : Prop where
  le : p ≤ t.start
  lt : t.start < t.stop
  start_boundary : Text.IsBoundary text t.start
  stop_boundary : Text.IsBoundary text t.stop

/-- Where the token of a leaf starts. Text between tags is kept whole. -/
def leafStart (text : Source) (n : Node) : Nat :=
  if n.isToken .jsxText then n.pos else Trivia.skip text n.pos

inductive Spelled (text : Source) : Nat → List Node → List Taken → Nat → Prop where
  | nil (p : Nat) : Spelled text p [] [] p
  | skip {p q : Nat} {t : Taken} {ns : List Node} {ts : List Taken} (ht : t.Behind text p)
      (rest : Spelled text t.stop ns ts q) : Spelled text p ns (t :: ts) q
  | leaf {p q : Nat} {n : Node} {k : TokenKind} {t : Taken} {ns : List Node} {ts : List Taken}
      (hk : n.kind = .token k) (hc : n.children = []) (hp : n.pos = p) (hs : n.stop = t.stop)
      (hstart : t.start = leafStart text n) (ht : t.Behind text p)
      (rest : Spelled text t.stop ns ts q) : Spelled text p (n :: ns) (t :: ts) q
  | form {p q : Nat} {n : Node} {f : Form} {ns : List Node} {ts us : List Taken}
      (hk : n.kind = .form f) (hp : n.pos = p) (inner : Spelled text p n.children ts n.stop)
      (hfit : Usable n → Fit n) (rest : Spelled text n.stop ns us q) :
      Spelled text p (n :: ns) (ts ++ us) q

namespace Spelled

variable {text : Source} {p q m : Nat} {n : Node} {ns ms : List Node} {ts us : List Taken}

lemma append (h : Spelled text p ns ts m) (h' : Spelled text m ms us q) :
    Spelled text p (ns ++ ms) (ts ++ us) q := by
  induction h with
  | nil p => exact h'
  | skip ht _ ih => exact .skip ht (ih h')
  | leaf hk hc hp hs hstart ht _ ih => exact .leaf hk hc hp hs hstart ht (ih h')
  | form hk hp inner hfit _ _ ih =>
    rw [List.cons_append, List.append_assoc]
    exact .form hk hp inner hfit (ih h')

lemma le (h : Spelled text p ns ts q) : p ≤ q := by
  induction h with
  | nil p => exact Nat.le_refl p
  | skip ht _ ih => exact Nat.le_trans ht.le (Nat.le_trans (Nat.le_of_lt ht.lt) ih)
  | leaf _ _ _ _ _ ht _ ih => exact Nat.le_trans ht.le (Nat.le_trans (Nat.le_of_lt ht.lt) ih)
  | form _ _ _ _ _ ih₁ ih₂ => exact Nat.le_trans ih₁ ih₂

/-- A node of a form around nodes that have been spelled. -/
lemma ofForm {f : Form} (hk : n.kind = .form f) (hp : n.pos = p)
    (inner : Spelled text p n.children ts n.stop) (hfit : Usable n → Fit n) :
    Spelled text p [n] ts n.stop := by
  simpa using form hk hp inner hfit (.nil _)

/-- The tokens are the same if the nodes are forgotten. -/
lemma forget (h : Spelled text p ns ts q) : Spelled text p [] ts q := by
  induction h with
  | nil p => exact .nil p
  | skip ht _ ih => exact .skip ht ih
  | leaf _ _ _ _ _ ht _ ih => exact .skip ht ih
  | form _ _ _ _ _ ih₁ ih₂ => exact ih₁.append ih₂

/-- Some of the nodes may be forgotten. -/
lemma sublist (h : Spelled text p ns ts q) (hm : ms.Sublist ns) : Spelled text p ms ts q := by
  induction h generalizing ms with
  | nil p =>
    rw [List.sublist_nil.1 hm]
    exact .nil p
  | skip ht _ ih => exact .skip ht (ih hm)
  | leaf hk hc hp hs hstart ht _ ih =>
    cases hm with
    | cons _ hm => exact .skip ht (ih hm)
    | cons_cons _ hm => exact .leaf hk hc hp hs hstart ht (ih hm)
  | form hk hp inner hfit _ _ ih =>
    cases hm with
    | cons _ hm => exact inner.forget.append (ih hm)
    | cons_cons _ hm => exact .form hk hp inner hfit (ih hm)

/-- The part that a node plays is not spelled. -/
lemma congr (h : Spelled text p ns ts q)
    (hm : ms.map (·.withRole .root) = ns.map (·.withRole .root)) :
    Spelled text p ms ts q := by
  have same {n n' : Node} (e : n'.withRole .root = n.withRole .root) :
      n'.kind = n.kind ∧ n'.pos = n.pos ∧ n'.stop = n.stop ∧ n'.children = n.children ∧
        (Usable n' ↔ Usable n) ∧ (Fit n' ↔ Fit n) := by
    refine ⟨?_, ?_, ?_, ?_, ?_, ?_⟩
    · simpa using congrArg Tree.kind e
    · simpa using congrArg Tree.pos e
    · simpa using congrArg Tree.stop e
    · simpa using congrArg Tree.children e
    · rw [← Estree.usable_withRole n' .root, e, Estree.usable_withRole]
    · rw [← Estree.fit_withRole n' .root, e, Estree.fit_withRole]
  induction h generalizing ms with
  | nil p =>
    obtain rfl : ms = [] := by simpa using hm
    exact .nil p
  | skip ht _ ih => exact .skip ht (ih hm)
  | leaf hk hc hp hs hstart ht _ ih =>
    obtain ⟨n', ms, rfl, e, hm⟩ := List.map_eq_cons_iff.1 hm
    obtain ⟨ek, ep, es, ec, -, -⟩ := same e
    refine .leaf (ek.trans hk) (ec.trans hc) (ep.trans hp) (es.trans hs) ?_ ht (ih hm)
    rw [hstart, leafStart, leafStart, Tree.isToken, Tree.isToken, ek, ep]
  | form hk hp inner hfit _ _ ih =>
    obtain ⟨n', ms, rfl, e, hm⟩ := List.map_eq_cons_iff.1 hm
    obtain ⟨ek, ep, es, ec, eu, ef⟩ := same e
    refine .form (ek.trans hk) (ep.trans hp) (by rw [ec, es]; exact inner)
      (fun h => ef.2 (hfit (eu.1 h))) ?_
    rw [es]
    exact ih hm

/-- The first node, and what comes behind it. -/
lemma cons_inv (h : Spelled text p (n :: ns) ts q) :
    ∃ ts₁ ts₂ p', Spelled text p [] ts₁ p' ∧ n.pos = p' ∧
      ∃ us, Spelled text p' [n] us n.stop ∧ Spelled text n.stop ns ts₂ q ∧
        ts = ts₁ ++ us ++ ts₂ := by
  generalize hl : n :: ns = l at h
  induction h with
  | nil p => cases hl
  | skip ht _ ih =>
    obtain ⟨ts₁, ts₂, p', h₁, hp, us, h₂, h₃, rfl⟩ := ih hl
    exact ⟨_ :: ts₁, ts₂, p', .skip ht h₁, hp, us, h₂, h₃, by simp⟩
  | leaf hk hc hp hs hstart ht rest _ =>
    cases hl
    refine ⟨[], _, _, .nil _, hp, [_], ?_, hs ▸ rest, rfl⟩
    exact hs ▸ .leaf hk hc hp hs hstart ht (.nil _)
  | form hk hp inner hfit rest _ _ =>
    cases hl
    exact ⟨[], _, _, .nil _, hp, _, ofForm hk hp inner hfit, rest, rfl⟩

/-- Nodes before a place in the list, and those behind it. -/
lemma append_inv (h : Spelled text p (ns ++ ms) ts q) :
    ∃ ts₁ ts₂ p', Spelled text p ns ts₁ p' ∧ Spelled text p' ms ts₂ q ∧ ts = ts₁ ++ ts₂ := by
  induction ns generalizing p ts with
  | nil => exact ⟨[], ts, p, .nil p, h, rfl⟩
  | cons n ns ih =>
    obtain ⟨ts₁, ts₂, p', h₁, hp, us, h₂, h₃, rfl⟩ := cons_inv h
    obtain ⟨vs₁, vs₂, p'', h₄, h₅, rfl⟩ := ih h₃
    exact ⟨ts₁ ++ us ++ vs₁, vs₂, p'', by simpa using (h₁.append h₂).append h₄, h₅, by simp⟩

/-- A node of a form around the last of the nodes. -/
lemma wrap {f : Form} (h : Spelled text p (ns ++ [n]) ts q) (n' : Node) (hk : n'.kind = .form f)
    (hp : n'.pos = n.pos) (hs : n'.stop = n.stop)
    (hc : n'.children.map (·.withRole .root) = [n.withRole .root]) (hfit : Usable n' → Fit n') :
    Spelled text p (ns ++ [n']) ts q := by
  obtain ⟨ts₁, ts₂, p', h₁, h₂, rfl⟩ := h.append_inv
  obtain ⟨us₁, us₂, p'', h₃, hpos, us, h₄, h₅, rfl⟩ := h₂.cons_inv
  have h₆ : Spelled text p'' [n'] us n'.stop :=
    ofForm hk (hp.trans hpos) (hs ▸ h₄.congr (by simpa using hc)) hfit
  have h₇ := (h₃.append h₆).append (hs ▸ h₅)
  exact h₁.append (by simpa using h₇)

/-- The parts of a node in its place. -/
lemma inline {f : Form} (h : Spelled text p (ns ++ n :: ms) ts q) (hk : n.kind = .form f) :
    Spelled text p (ns ++ n.children ++ ms) ts q ∧ (Usable n → Fit n) := by
  generalize hl : ns ++ n :: ms = l at h
  induction h generalizing ns with
  | nil p => simp at hl
  | skip ht _ ih => exact ⟨.skip ht (ih hl).1, (ih hl).2⟩
  | leaf hk' hc hp hs hstart ht _ ih =>
    cases ns with
    | nil =>
      obtain ⟨rfl, -⟩ := List.cons.inj hl
      rw [hk] at hk'
      cases hk'
    | cons a ns =>
      obtain ⟨rfl, htail⟩ := List.cons.inj hl
      exact ⟨.leaf hk' hc hp hs hstart ht (ih htail).1, (ih htail).2⟩
  | form hk' hp inner hfit rest _ ih =>
    cases ns with
    | nil =>
      obtain ⟨rfl, rfl⟩ := List.cons.inj hl
      exact ⟨inner.append rest, hfit⟩
    | cons a ns =>
      obtain ⟨rfl, htail⟩ := List.cons.inj hl
      exact ⟨.form hk' hp inner hfit (ih htail).1, (ih htail).2⟩

end Spelled

/-! ### Marks -/

/-- A place that a parse has come by, and the tokens it had taken there. -/
structure Mark where
  pos : Nat
  taken : List Taken

/-- The nodes that have been built since a mark are spelled by the tokens taken since. -/
structure Since (text : Source) (m : Mark) (ns : List Node) (s : State) : Prop where
  sound : s.scanner.Sound text
  spelled : ∃ ts, s.taken = ts.reverse ++ m.taken ∧
    Spelled text m.pos ns ts s.scanner.fullStart

/-- The mark at a state. -/
def State.mark (s : State) : Mark := ⟨s.scanner.fullStart, s.taken⟩

/-- The token at hand. -/
def State.atHand (s : State) : Taken :=
  ⟨s.scanner.kind, s.scanner.tokenStart, s.scanner.tokenEnd, s.scanner.flags.unterminated⟩

/-- The state after the token at hand has been taken and `f` has read another. -/
def State.after (s : State) (f : Scanner → Scanner) : State :=
  { s with scanner := f s.scanner, taken := s.atHand :: s.taken }

namespace Since

variable {text : Source} {m : Mark} {ns ms : List Node} {s t : State}

lemma refl (h : s.scanner.Sound text) : Since text s.mark [] s := ⟨h, [], rfl, .nil _⟩

/-- What has been built since a later mark comes behind what had been built there. -/
lemma trans (h : Since text m ns s) (h' : Since text s.mark ms t) :
    Since text m (ns ++ ms) t := by
  obtain ⟨ts, hts, hs⟩ := h.spelled
  obtain ⟨us, hus, hs'⟩ := h'.spelled
  exact ⟨h'.sound, ts ++ us, by simp [hus, State.mark, hts], hs.append hs'⟩

lemma sublist (h : Since text m ns s) (hm : ms.Sublist ns) : Since text m ms s := by
  obtain ⟨ts, hts, hs⟩ := h.spelled
  exact ⟨h.sound, ts, hts, hs.sublist hm⟩

/-- The state may change where the scanner and the tokens do not. -/
lemma of_eq (h : Since text m ns s) (hs : t.scanner = s.scanner) (ht : t.taken = s.taken) :
    Since text m ns t := by
  obtain ⟨ts, hts, hsp⟩ := h.spelled
  exact ⟨hs ▸ h.sound, ts, ht.trans hts, hs ▸ hsp⟩

/-- The token at hand is spelled by itself. -/
lemma behind (h : Since text m ns s) (hk : s.scanner.kind ≠ .endOfFile) :
    s.atHand.Behind text s.scanner.fullStart :=
  ⟨h.sound.fullStart_le, (h.sound.rest hk).2, h.sound.start_on.isBoundary,
    h.sound.cursor_on.isBoundary⟩

/-- The token at hand has been taken, as the nodes `ms` or as none. -/
lemma take {f : Scanner → Scanner} (h : Since text m ns s) (hf : (f s.scanner).Sound text)
    (hfull : (f s.scanner).fullStart = s.scanner.tokenEnd)
    (hms : Spelled text s.scanner.fullStart ms [s.atHand] s.atHand.stop) :
    Since text m (ns ++ ms) (s.after f) := by
  obtain ⟨ts, hts, hs⟩ := h.spelled
  refine ⟨hf, ts ++ [s.atHand], by simp [State.after, hts], ?_⟩
  rw [show (s.after f).scanner.fullStart = s.atHand.stop from hfull]
  exact hs.append hms

end Since

end EstreeLint.Grammar
