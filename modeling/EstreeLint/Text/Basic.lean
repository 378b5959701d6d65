/-!
Source text as a list of characters, addressed by UTF-8 byte offsets.

An offset is a boundary when it lies between two characters. Cutting a text off a boundary
fails (`dropBytes?`, `takeBytes?`, `slice?`) or yields nothing (`suffixAt`, `slice`).
-/

namespace EstreeLint

/-- A source text. Offsets into it count bytes of its UTF-8 form. -/
abbrev Source := List Char

namespace Text

/-- Bytes that a run of characters takes in UTF-8. -/
def bytes : List Char → Nat
  | [] => 0
  | c :: cs => c.utf8Size + bytes cs

/-- UTF-16 units that one character takes. -/
def unit (c : Char) : Nat := if c.toNat < 0x10000 then 1 else 2

/-- UTF-16 units that a run of characters takes. -/
def units : List Char → Nat
  | [] => 0
  | c :: cs => unit c + units cs

/-- The characters after the first `n` bytes, if `n` is a boundary. -/
def dropBytes? : Nat → List Char → Option (List Char)
  | 0, cs => some cs
  | _ + 1, [] => none
  | n + 1, c :: cs => if c.utf8Size ≤ n + 1 then dropBytes? (n + 1 - c.utf8Size) cs else none

/-- The characters of the first `n` bytes, if `n` is a boundary. -/
def takeBytes? : Nat → List Char → Option (List Char)
  | 0, _ => some []
  | _ + 1, [] => none
  | n + 1, c :: cs =>
    if c.utf8Size ≤ n + 1 then (takeBytes? (n + 1 - c.utf8Size) cs).map (c :: ·) else none

/-- The characters from byte `start` to byte `stop`, if both are boundaries in order. -/
def slice? (text : Source) (start stop : Nat) : Option (List Char) :=
  if start ≤ stop then (dropBytes? start text).bind (takeBytes? (stop - start)) else none

/-- Like `slice?`, and empty where that fails. -/
def slice (text : Source) (start stop : Nat) : List Char := (slice? text start stop).getD []

/-- The text of a slice. -/
def sliceString (text : Source) (start stop : Nat) : String :=
  String.ofList (slice text start stop)

/-- The characters from byte `pos` on; none off a boundary. -/
def suffixAt (text : Source) (pos : Nat) : List Char := (dropBytes? pos text).getD []

/-- An offset between two characters, or at an end of the text. -/
def IsBoundary (text : Source) (pos : Nat) : Prop := (dropBytes? pos text).isSome

instance (text : Source) (pos : Nat) : Decidable (IsBoundary text pos) :=
  inferInstanceAs (Decidable (_ = true))

@[simp] theorem bytes_nil : bytes [] = 0 := rfl

@[simp] theorem bytes_cons (c : Char) (cs : List Char) :
    bytes (c :: cs) = c.utf8Size + bytes cs := rfl

theorem bytes_append (u v : List Char) : bytes (u ++ v) = bytes u + bytes v := by
  induction u with
  | nil => simp
  | cons c u ih => simp [ih, Nat.add_assoc]

theorem bytes_pos {cs : List Char} (h : cs ≠ []) : 0 < bytes cs := by
  obtain ⟨c, cs, rfl⟩ := List.exists_cons_of_ne_nil h
  have := c.utf8Size_pos
  rw [bytes_cons]
  omega

theorem utf8Size_ne_zero (c : Char) : c.utf8Size ≠ 0 := Nat.ne_of_gt c.utf8Size_pos

/-- Cutting after a whole run gives back what follows it. -/
theorem dropBytes?_append (u v : List Char) : dropBytes? (bytes u) (u ++ v) = some v := by
  induction u with
  | nil => cases v <;> rfl
  | cons c u ih =>
    obtain ⟨k, hk⟩ := Nat.exists_eq_succ_of_ne_zero (utf8Size_ne_zero c)
    have : c.utf8Size + bytes u = (k + bytes u) + 1 := by omega
    simp only [bytes_cons, this, List.cons_append, dropBytes?]
    rw [if_pos (by omega), show k + bytes u + 1 - c.utf8Size = bytes u by omega]
    exact ih

/-- A cut succeeds exactly at the end of a run of whole characters. -/
theorem dropBytes?_eq_some_iff {n : Nat} {cs v : List Char} :
    dropBytes? n cs = some v ↔ ∃ u, cs = u ++ v ∧ n = bytes u := by
  constructor
  · intro h
    induction cs generalizing n with
    | nil =>
      cases n with
      | zero => simp only [dropBytes?, Option.some.injEq] at h; exact ⟨[], by simp [h], rfl⟩
      | succ n => simp [dropBytes?] at h
    | cons c cs ih =>
      cases n with
      | zero => simp only [dropBytes?, Option.some.injEq] at h; exact ⟨[], by simp [h], rfl⟩
      | succ n =>
        simp only [dropBytes?] at h
        split at h
        · obtain ⟨u, rfl, hu⟩ := ih h
          exact ⟨c :: u, rfl, by simp only [bytes_cons]; omega⟩
        · simp at h
  · rintro ⟨u, rfl, rfl⟩
    exact dropBytes?_append u v

end Text

end EstreeLint
