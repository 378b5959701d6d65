import EstreeLint.Proofs.Token.Cut

/-!
The longest match. Punctuation is read by looking ahead one character after the other, and what is
read is the longest punctuation of the table that the text begins with. Three are held back: `>` is
read alone, `?.` is not read before a digit, and `</` is read only where elements may occur and not
before `*`.
-/

namespace EstreeLint

namespace Punctuation

variable {jsx : Bool} {c : Char} {cs : List Char} {n : Nat}

/-- Punctuation that may be read at the front of a text. -/
structure MayOpen (jsx : Bool) (cs w : List Char) : Prop where
  opens : w <+: cs
  alone : w.head? = some '>' → w = ['>']
  noFraction : w = ['?', '.'] → (cs.drop 2).head?.any Char.isDigit = false
  element : w = ['<', '/'] → jsx = true ∧ (cs.drop 2).head? ≠ some '*'

/-- No punctuation that may be read at the front of a text is longer. -/
def Longest (jsx : Bool) (cs : List Char) (n : Nat) : Prop :=
  ∀ entry ∈ TokenKind.punctuators, MayOpen jsx cs entry.2.toList → entry.2.toList.length ≤ n

/-- Spellings in the table that begin with a character. -/
def spellingsFrom (c : Char) : List (List Char) :=
  (TokenKind.punctuators.map (·.2.toList)).filter (·.head? == some c)

/-- Only what begins with the first character of a text stands at its front. -/
lemma mem_spellingsFrom {entry : TokenKind × String} (h : entry ∈ TokenKind.punctuators)
    (hopens : entry.2.toList <+: c :: cs) (hlength : 1 < entry.2.toList.length) :
    entry.2.toList ∈ (spellingsFrom c).filter (1 < ·.length) := by
  have hhead : entry.2.toList.head? = some c := by
    obtain ⟨ds, hds⟩ := hopens
    obtain ⟨d, w, hw⟩ := List.exists_cons_of_length_pos (Nat.lt_of_succ_lt hlength)
    rw [hw, List.cons_append] at hds
    rw [hw, List.head?_cons, (List.cons.inj hds).1]
  rw [spellingsFrom, List.mem_filter, List.mem_filter]
  exact ⟨⟨List.mem_map_of_mem h, by simp [hhead]⟩, by simpa using hlength⟩

/-- What is longer than one character has to be looked at. -/
lemma longest_of {l : List (List Char)} (hl : (spellingsFrom c).filter (1 < ·.length) = l)
    (hn : 0 < n) (h : ∀ w ∈ l, MayOpen jsx (c :: cs) w → w.length ≤ n) :
    Longest jsx (c :: cs) n := by
  intro entry hentry hopen
  by_cases hlength : 1 < entry.2.toList.length
  · exact h _ (hl ▸ mem_spellingsFrom hentry hopen.opens hlength) hopen
  · omega

lemma rest_of_prefix {w : List Char} (h : c :: w <+: c :: cs) : ∃ ds, cs = w ++ ds := by
  obtain ⟨ds, hds⟩ := h
  exact ⟨ds, by simpa using hds.symm⟩

/-! ### One look-ahead after the other -/

lemma longest_withEquals {one oneEquals : TokenKind}
    (h : (spellingsFrom c).filter (1 < ·.length) = [[c, '=']]) (cs : List Char)
    (hn : 0 < (withEquals one oneEquals cs).2) :
    Longest jsx (c :: cs) (withEquals one oneEquals cs).2 := by
  refine longest_of h hn fun w hw hopen => ?_
  obtain rfl := List.mem_singleton.1 hw
  obtain ⟨ds, rfl⟩ := rest_of_prefix hopen.opens
  exact Nat.le_refl 2

lemma longest_stepOrEquals {one two oneEquals : TokenKind}
    (h : (spellingsFrom c).filter (1 < ·.length) = [[c, c], [c, '=']]) (cs : List Char)
    (hn : 0 < (stepOrEquals c one two oneEquals cs).2) :
    Longest jsx (c :: cs) (stepOrEquals c one two oneEquals cs).2 := by
  refine longest_of h hn fun w hw hopen => ?_
  simp only [List.mem_cons, List.not_mem_nil, or_false] at hw
  rcases hw with rfl | rfl
  all_goals
    obtain ⟨ds, rfl⟩ := rest_of_prefix hopen.opens
    unfold stepOrEquals withEquals
    split <;> simp_all

lemma longest_doubled {one two oneEquals twoEquals : TokenKind}
    (h : (spellingsFrom c).filter (1 < ·.length) = [[c, c], [c, '='], [c, c, '=']])
    (cs : List Char) (hn : 0 < (doubled c one two oneEquals twoEquals cs).2) :
    Longest jsx (c :: cs) (doubled c one two oneEquals twoEquals cs).2 := by
  refine longest_of h hn fun w hw hopen => ?_
  simp only [List.mem_cons, List.not_mem_nil, or_false] at hw
  have htwo {a : Char} (ds : List Char) (ha : a = c ∨ a = '=') :
      2 ≤ (doubled c one two oneEquals twoEquals (a :: ds)).2 := by
    cases ds <;> simp only [doubled] <;> split_ifs <;> simp_all
  rcases hw with rfl | rfl | rfl
  · obtain ⟨ds, rfl⟩ := rest_of_prefix hopen.opens
    exact htwo ds (.inl rfl)
  · obtain ⟨ds, rfl⟩ := rest_of_prefix hopen.opens
    exact htwo ds (.inr rfl)
  · obtain ⟨ds, rfl⟩ := rest_of_prefix hopen.opens
    simp [doubled]

lemma longest_afterExclamation (cs : List Char) (hn : 0 < (afterExclamation cs).2) :
    Longest jsx ('!' :: cs) (afterExclamation cs).2 := by
  refine longest_of (l := [['!', '='], ['!', '=', '=']]) (by decide) hn fun w hw hopen => ?_
  simp only [List.mem_cons, List.not_mem_nil, or_false] at hw
  rcases hw with rfl | rfl
  · obtain ⟨ds, rfl⟩ := rest_of_prefix hopen.opens
    unfold afterExclamation
    split <;> simp_all
  · obtain ⟨ds, rfl⟩ := rest_of_prefix hopen.opens
    exact Nat.le_refl 3

lemma longest_afterDot (cs : List Char) (hn : 0 < (afterDot cs).2) :
    Longest jsx ('.' :: cs) (afterDot cs).2 := by
  refine longest_of (l := [['.', '.', '.']]) (by decide) hn fun w hw hopen => ?_
  obtain rfl := List.mem_singleton.1 hw
  obtain ⟨ds, rfl⟩ := rest_of_prefix hopen.opens
  exact Nat.le_refl 3

lemma longest_afterEquals (cs : List Char) (hn : 0 < (afterEquals cs).2) :
    Longest jsx ('=' :: cs) (afterEquals cs).2 := by
  refine longest_of (l := [['=', '='], ['=', '=', '='], ['=', '>']]) (by decide) hn
    fun w hw hopen => ?_
  simp only [List.mem_cons, List.not_mem_nil, or_false] at hw
  rcases hw with rfl | rfl | rfl
  · obtain ⟨ds, rfl⟩ := rest_of_prefix hopen.opens
    unfold afterEquals
    split <;> simp_all
  · obtain ⟨ds, rfl⟩ := rest_of_prefix hopen.opens
    exact Nat.le_refl 3
  · obtain ⟨ds, rfl⟩ := rest_of_prefix hopen.opens
    exact Nat.le_refl 2

lemma longest_afterQuestion (cs : List Char) (hn : 0 < (afterQuestion cs).2) :
    Longest jsx ('?' :: cs) (afterQuestion cs).2 := by
  refine longest_of (l := [['?', '.'], ['?', '?'], ['?', '?', '=']]) (by decide) hn
    fun w hw hopen => ?_
  simp only [List.mem_cons, List.not_mem_nil, or_false] at hw
  rcases hw with rfl | rfl | rfl
  · obtain ⟨ds, rfl⟩ := rest_of_prefix hopen.opens
    have hdigit : ds.head?.any Char.isDigit = false := hopen.noFraction rfl
    simp [afterQuestion, hdigit]
  · obtain ⟨ds, rfl⟩ := rest_of_prefix hopen.opens
    simp only [afterQuestion, List.cons_append, List.nil_append]
    split <;> simp
  · obtain ⟨ds, rfl⟩ := rest_of_prefix hopen.opens
    exact Nat.le_refl 3

lemma longest_afterLess (cs : List Char) (hn : 0 < (afterLess jsx cs).2) :
    Longest jsx ('<' :: cs) (afterLess jsx cs).2 := by
  refine longest_of (l := [['<', '/'], ['<', '='], ['<', '<'], ['<', '<', '=']]) (by decide) hn
    fun w hw hopen => ?_
  simp only [List.mem_cons, List.not_mem_nil, or_false] at hw
  rcases hw with rfl | rfl | rfl | rfl
  · obtain ⟨ds, rfl⟩ := rest_of_prefix hopen.opens
    obtain ⟨rfl, hstar⟩ : jsx = true ∧ ds.head? ≠ some '*' := hopen.element rfl
    simp [afterLess, hstar]
  · obtain ⟨ds, rfl⟩ := rest_of_prefix hopen.opens
    exact Nat.le_refl 2
  · obtain ⟨ds, rfl⟩ := rest_of_prefix hopen.opens
    simp only [afterLess, List.cons_append, List.nil_append]
    split <;> simp
  · obtain ⟨ds, rfl⟩ := rest_of_prefix hopen.opens
    exact Nat.le_refl 3

lemma longest_greater (cs : List Char) : Longest jsx ('>' :: cs) 1 := by
  refine longest_of (l := [['>', '='], ['>', '>'], ['>', '>', '>'], ['>', '>', '='],
    ['>', '>', '>', '=']]) (by decide) (by decide) fun w hw hopen => ?_
  simp only [List.mem_cons, List.not_mem_nil, or_false] at hw
  rcases hw with rfl | rfl | rfl | rfl | rfl
  all_goals exact absurd (hopen.alone rfl) (by decide)

/-- **What is read as punctuation is the longest that may be read.** -/
theorem read?_longest {x : TokenKind × Nat} (h : read? jsx c cs = some x) :
    Longest jsx (c :: cs) x.2 := by
  have hn : 0 < x.2 := by
    obtain ⟨rfl, -⟩ | hproper := read?_proper h
    · decide
    · exact hproper.2.2
  unfold read? at h
  split at h
  all_goals first | (cases h; done) | obtain rfl := Option.some.inj h
  all_goals first
    | exact longest_of (l := []) (by decide) hn (by simp)
    | exact longest_afterExclamation cs hn
    | exact longest_afterDot cs hn
    | exact longest_afterEquals cs hn
    | exact longest_afterQuestion cs hn
    | exact longest_afterLess cs hn
    | exact longest_greater cs
    | exact longest_withEquals (by decide) cs hn
    | exact longest_stepOrEquals (by decide) cs hn
    | exact longest_doubled (by decide) cs hn

lemma exists_of_take {d e : Char} {n : Nat} (h : (c :: cs).take n = [d, e]) :
    c = d ∧ (∃ ds, cs = e :: ds) ∧ n ≠ 1 := by
  obtain ⟨ds, hds⟩ := h ▸ List.take_prefix n (c :: cs)
  obtain ⟨rfl, rfl⟩ := List.cons.inj hds
  exact ⟨rfl, ⟨ds, rfl⟩, fun h1 => by simp [h1] at h⟩

/-- What is read as punctuation is not held back. -/
theorem read?_mayOpen {x : TokenKind × Nat} (h : read? jsx c cs = some x) :
    MayOpen jsx (c :: cs) ((c :: cs).take x.2) where
  opens := List.take_prefix _ _
  alone hhead := by
    obtain ⟨n, hn⟩ : ∃ n, x.2 = n + 1 :=
      Nat.exists_eq_succ_of_ne_zero fun h0 => by simp [h0] at hhead
    obtain rfl : c = '>' := by simpa [hn] using hhead
    cases h
    rfl
  noFraction hw := by
    obtain ⟨rfl, ⟨ds, rfl⟩, hone⟩ := exists_of_take hw
    cases h
    by_contra hdigit
    refine hone ?_
    simp only [afterQuestion]
    rw [if_pos (by simpa using hdigit)]
  element hw := by
    obtain ⟨rfl, ⟨ds, rfl⟩, hone⟩ := exists_of_take hw
    cases h
    by_contra hstar
    refine hone ?_
    simp only [afterLess]
    rw [if_neg (by simpa using hstar)]

/-- **The operator that a `>` opens is the longest that the text begins with.** -/
theorem greaterRest_longest (cs : List Char) :
    ∀ entry ∈ TokenKind.punctuators, entry.2.toList <+: '>' :: cs →
      entry.2.toList.length ≤ 1 + (greaterRest cs).2 := by
  intro entry hentry hprefix
  by_cases hlength : 1 < entry.2.toList.length
  · have hmem := mem_spellingsFrom hentry hprefix hlength
    rw [show (spellingsFrom '>').filter (1 < ·.length) = [['>', '='], ['>', '>'], ['>', '>', '>'],
      ['>', '>', '='], ['>', '>', '>', '=']] by decide] at hmem
    generalize entry.2.toList = w at hmem hprefix
    simp only [List.mem_cons, List.not_mem_nil, or_false] at hmem
    rcases hmem with rfl | rfl | rfl | rfl | rfl
    all_goals obtain ⟨ds, rfl⟩ := rest_of_prefix hprefix
    · exact Nat.le_refl 2
    · unfold greaterRest
      split <;> (try split) <;> simp_all
    · simp only [greaterRest, List.cons_append, List.nil_append]
      split <;> simp
    · exact Nat.le_refl 3
    · exact Nat.le_refl 4
  · omega

end Punctuation

end EstreeLint
