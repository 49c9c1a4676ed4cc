/-!
# Blank characters and trimming

`isBlank` is membership in the Unicode property `White_Space`. `trim` drops the blanks at both
ends of a text; `trim_eq_nil_iff` says when nothing is left.
-/

namespace TaskBoard.Text

/-- The characters with the Unicode property `White_Space`. -/
def isBlank (c : Char) : Bool :=
  let n := c.toNat
  (0x09 ≤ n && n ≤ 0x0D) || n == 0x20 || n == 0x85 || n == 0xA0 || n == 0x1680
    || (0x2000 ≤ n && n ≤ 0x200A) || n == 0x2028 || n == 0x2029 || n == 0x202F
    || n == 0x205F || n == 0x3000

/-- The text without the blanks it begins with. -/
def trimLeft (cs : List Char) : List Char := cs.dropWhile isBlank

/-- The text without the blanks it ends with. -/
def trimRight (cs : List Char) : List Char := (cs.reverse.dropWhile isBlank).reverse

/-- The text without the blanks at its two ends. -/
def trim (cs : List Char) : List Char := trimRight (trimLeft cs)

/-- `trim` on strings. -/
def trimmed (s : String) : String := String.ofList (trim s.toList)

theorem trimLeft_eq_nil_iff (cs : List Char) :
    trimLeft cs = [] ↔ ∀ c ∈ cs, isBlank c = true := by
  induction cs with
  | nil => simp [trimLeft]
  | cons c cs ih => by_cases h : isBlank c = true <;> simp_all [trimLeft]

theorem trimRight_eq_nil_iff (cs : List Char) :
    trimRight cs = [] ↔ ∀ c ∈ cs, isBlank c = true := by
  rw [trimRight, List.reverse_eq_nil_iff, ← trimLeft, trimLeft_eq_nil_iff]
  simp

/-- Trimming leaves nothing exactly when there is nothing but blanks. -/
theorem trim_eq_nil_iff (cs : List Char) : trim cs = [] ↔ ∀ c ∈ cs, isBlank c = true := by
  rw [trim, trimRight_eq_nil_iff, ← trimLeft_eq_nil_iff cs]
  constructor
  · intro h
    cases hd : trimLeft cs with
    | nil => rfl
    | cons c r =>
      have hc : isBlank c = true := h c (by simp [hd])
      have hf : isBlank c = false := by
        have := List.head?_dropWhile_not isBlank cs
        rw [show cs.dropWhile isBlank = c :: r from hd] at this
        simpa using this
      simp [hc] at hf
  · intro h; simp [h]

end TaskBoard.Text
