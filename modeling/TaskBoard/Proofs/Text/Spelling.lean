import TaskBoard.Proofs.Text.Numeral
import TaskBoard.Text.Ascii

/-!
# Spellings of numbers and names

What texts are read as a number, and as which: one or more ASCII digits in base ten, with a sign in
front if one is allowed. And what texts are read as a name in any letter case.

* `readUnsigned?_eq_some_iff`, `readSigned?_eq_some_iff`: the texts that are read as a number;
* `lowerAscii_eq_toLower`: a name in any letter case.
-/

namespace TaskBoard.Text

/-! ## Numbers -/

/-- One or more ASCII digits and the number that they denote in base ten. -/
structure IsDigits (cs : List Char) (n : Nat) : Prop where
  ne_nil : cs ≠ []
  digits : ∀ c ∈ cs, '0' ≤ c ∧ c ≤ '9'
  value : cs.foldl (fun m c => m * 10 + (c.toNat - '0'.toNat)) 0 = n

/-- Digits with an optional plus sign. -/
def IsUnsigned (cs : List Char) (n : Nat) : Prop :=
  ∃ sign digits, cs = sign ++ digits ∧ (sign = [] ∨ sign = ['+']) ∧ IsDigits digits n

/-- Digits with an optional sign. -/
def IsSigned (cs : List Char) (i : Int) : Prop :=
  (∃ n, IsUnsigned cs n ∧ i = Int.ofNat n)
    ∨ ∃ digits n, cs = '-' :: digits ∧ IsDigits digits n ∧ i = -Int.ofNat n

variable {cs : List Char}

theorem readDigits_eq_some_iff {m n : Nat} : readDigits m cs = some n
    ↔ (∀ c ∈ cs, '0' ≤ c ∧ c ≤ '9')
      ∧ cs.foldl (fun m c => m * 10 + (c.toNat - '0'.toNat)) m = n := by
  induction cs generalizing m with
  | nil => simp [readDigits]
  | cons c cs ih =>
    rw [readDigits, List.forall_mem_cons, List.foldl_cons]
    by_cases hc : '0' ≤ c ∧ c ≤ '9'
    · have hvalue : digitValue? c = some (c.toNat - '0'.toNat) := if_pos hc
      rw [hvalue, Option.bind_some, ih]
      simp [hc]
    · have hvalue : digitValue? c = none := if_neg hc
      rw [hvalue, Option.bind_none]
      simp [hc]

theorem readNat?_eq_some_iff {n : Nat} : readNat? cs = some n ↔ IsDigits cs n := by
  rcases cs with _ | ⟨c, cs⟩
  · constructor
    · intro h
      cases h
    · intro h
      exact absurd rfl h.ne_nil
  · rw [readNat?, readDigits_eq_some_iff]
    constructor
    · intro h
      exact ⟨List.cons_ne_nil _ _, h.1, h.2⟩
    · intro h
      exact ⟨h.digits, h.value⟩

/-- A sign is no digit. -/
theorem not_isDigits_cons {c : Char} {n : Nat} (hc : ¬ ('0' ≤ c ∧ c ≤ '9')) :
    ¬ IsDigits (c :: cs) n := fun h => hc (h.digits c List.mem_cons_self)

/-- The texts that are read as a number without a sign or with a plus sign. -/
theorem readUnsigned?_eq_some_iff {n : Nat} : readUnsigned? cs = some n ↔ IsUnsigned cs n := by
  unfold readUnsigned?
  split
  · rename_i digits
    rw [readNat?_eq_some_iff]
    constructor
    · intro h
      exact ⟨['+'], digits, rfl, Or.inr rfl, h⟩
    · rintro ⟨sign, digits', heq, rfl | rfl, h⟩
      · rw [List.nil_append] at heq
        rw [← heq] at h
        exact absurd h (not_isDigits_cons (by decide))
      · rw [(List.cons.inj heq).2]
        exact h
  · rename_i hplus
    rw [readNat?_eq_some_iff]
    constructor
    · intro h
      exact ⟨[], cs, rfl, Or.inl rfl, h⟩
    · rintro ⟨sign, digits, heq, rfl | rfl, h⟩
      · rw [heq]
        exact h
      · exact absurd heq (hplus digits)

theorem readSigned?_minus (digits : List Char) :
    readSigned? ('-' :: digits) = (readNat? digits).map fun n => -Int.ofNat n := by
  rw [readSigned?]
  rcases readNat? digits with _ | n
  · rfl
  · rfl

/-- The texts that are read as a number with or without a sign. -/
theorem readSigned?_eq_some_iff {i : Int} : readSigned? cs = some i ↔ IsSigned cs i := by
  by_cases hminus : ∃ digits, cs = '-' :: digits
  · rcases hminus with ⟨digits, rfl⟩
    rw [readSigned?_minus, Option.map_eq_some_iff]
    constructor
    · rintro ⟨n, h, rfl⟩
      exact Or.inr ⟨digits, n, rfl, readNat?_eq_some_iff.1 h, rfl⟩
    · rintro (⟨n, ⟨sign, digits', heq, rfl | rfl, h⟩, -⟩ | ⟨digits', n, heq, h, rfl⟩)
      · rw [List.nil_append] at heq
        rw [← heq] at h
        exact absurd h (not_isDigits_cons (by decide))
      · cases heq
      · cases heq
        exact ⟨n, readNat?_eq_some_iff.2 h, rfl⟩
  · have hplain : readSigned? cs = (readUnsigned? cs).map Int.ofNat := by
      unfold readSigned?
      split
      · rename_i digits
        exact absurd ⟨digits, rfl⟩ hminus
      · rfl
    rw [hplain, Option.map_eq_some_iff]
    constructor
    · rintro ⟨n, h, rfl⟩
      exact Or.inl ⟨n, readUnsigned?_eq_some_iff.1 h, rfl⟩
    · rintro (⟨n, h, rfl⟩ | ⟨digits, n, heq, -, -⟩)
      · exact ⟨n, readUnsigned?_eq_some_iff.2 h, rfl⟩
      · exact absurd ⟨digits, heq⟩ hminus

/-! ## Names -/

/-- A text is a name, but for the case of ASCII letters. -/
def InAnyCase (cs : List Char) (name : String) : Prop := cs.map Char.toLower = name.toList

theorem lowerAscii_eq_toLower (c : Char) : lowerAscii c = c.toLower := by
  unfold lowerAscii Char.toLower
  by_cases hupper : 'A' ≤ c ∧ c ≤ 'Z'
  · have hvalues : c.val ≥ 'A'.val ∧ c.val ≤ 'Z'.val := hupper
    rw [if_pos hupper, dif_pos hvalues]
    have hlow : 65 ≤ c.toNat := hupper.1
    have hhigh : c.toNat ≤ 90 := hupper.2
    have hcodes : ∀ n < 91, 65 ≤ n → (Char.ofNat (n + 32)).toNat = n + 32 := by decide
    apply Char.toNat_inj.1
    rw [hcodes c.toNat (by omega) hlow]
    show c.toNat + 32 = (c.val + 32).toNat
    rw [UInt32.toNat_add]
    show c.toNat + 32 = (c.toNat + 32) % 2 ^ 32
    omega
  · have hvalues : ¬ (c.val ≥ 'A'.val ∧ c.val ≤ 'Z'.val) := hupper
    rw [if_neg hupper, dif_neg hvalues]

theorem ofList_map_lowerAscii_eq_iff (name : String) :
    String.ofList (cs.map lowerAscii) = name ↔ InAnyCase cs name := by
  have hlower : lowerAscii = Char.toLower := funext lowerAscii_eq_toLower
  rw [InAnyCase, ← hlower, ← String.toList_inj, String.toList_ofList]

end TaskBoard.Text
