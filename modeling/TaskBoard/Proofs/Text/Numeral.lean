import Mathlib.Algebra.Group.Nat.Defs
import TaskBoard.Proofs.Text.Trim
import TaskBoard.Text.Decimal

/-!
# Numerals read back

Writing a number and reading the digits gives the number again, with or without zeros in front.

* `readDigits_natDigits`: the digits of a number, read, are the number;
* `readDigits_padded`, `length_padded`: the same with zeros in front, and how long that is;
* `intDigits_inj`: two integers with one numeral are one integer;
* `readSigned?_intDigits`: the numeral of an integer is read as that integer.
-/

namespace TaskBoard.Text

/-! ## Single digits -/

theorem digitValue?_digitChar {d : Nat} (hd : d < 10) : digitValue? (digitChar d) = some d := by
  have hcases : d = 0 ∨ d = 1 ∨ d = 2 ∨ d = 3 ∨ d = 4 ∨ d = 5 ∨ d = 6 ∨ d = 7 ∨ d = 8
      ∨ d = 9 := by omega
  rcases hcases with rfl | rfl | rfl | rfl | rfl | rfl | rfl | rfl | rfl | rfl <;> decide

theorem isDigit_digitChar (d : Nat) : isDigit (digitChar d) = true := by
  unfold digitChar
  split <;> decide

/-- A digit's code lies between those of `0` and `9`. -/
theorem isDigit_iff (c : Char) : isDigit c = true ↔ 48 ≤ c.toNat ∧ c.toNat ≤ 57 := by
  have hiff : ('0' ≤ c ∧ c ≤ '9') ↔ 48 ≤ c.toNat ∧ c.toNat ≤ 57 := Iff.rfl
  unfold isDigit digitValue?
  rw [← hiff]
  split
  · simp_all
  · simp_all

theorem lt_of_digitValue? {c : Char} {d : Nat} (h : digitValue? c = some d) : d < 10 := by
  have hc : isDigit c = true := by rw [isDigit, h]; rfl
  rw [isDigit_iff] at hc
  unfold digitValue? at h
  split at h
  · have hd := Option.some.inj h
    omega
  · cases h

theorem isBlank_of_isDigit {c : Char} (hc : isDigit c = true) : isBlank c = false := by
  rw [isDigit_iff] at hc
  simp only [isBlank, Bool.or_eq_false_iff, Bool.and_eq_false_iff, decide_eq_false_iff_not,
    beq_eq_false_iff_ne]
  omega

/-- A text that begins with a digit has no blanks to lose at its left end. -/
theorem trimLeft_of_isDigit {cs : List Char} (hhead : ∀ c, cs.head? = some c → isDigit c = true) :
    trimLeft cs = cs :=
  trimLeft_of_head fun c hc => isBlank_of_isDigit (hhead c hc)

/-! ## Digits that are read -/

/-- What is read has digits only. -/
theorem isDigit_of_readDigits {m n : Nat} {cs : List Char} (h : readDigits m cs = some n) :
    ∀ c ∈ cs, isDigit c = true := by
  induction cs generalizing m with
  | nil => simp
  | cons c cs ih =>
    obtain ⟨d, hd, hrest⟩ := Option.bind_eq_some_iff.1 h
    intro e he
    rcases List.mem_cons.1 he with rfl | he
    · rw [isDigit, hd]
      rfl
    · exact ih hrest e he

/-- Digits one after the other are read one after the other. -/
theorem readDigits_append {m n : Nat} {cs ds : List Char} (h : readDigits m (cs ++ ds) = some n) :
    ∃ k, readDigits m cs = some k ∧ readDigits k ds = some n := by
  induction cs generalizing m with
  | nil => exact ⟨m, rfl, h⟩
  | cons c cs ih =>
    obtain ⟨d, hd, hrest⟩ := Option.bind_eq_some_iff.1 h
    obtain ⟨k, hk, hn⟩ := ih hrest
    exact ⟨k, by rw [readDigits, hd]; exact hk, hn⟩

/-- Without the digits that have been read last a number is what it was before. -/
theorem div_of_readDigits {m n : Nat} {cs : List Char} (h : readDigits m cs = some n) :
    n / 10 ^ cs.length = m := by
  induction cs generalizing m with
  | nil => simpa [readDigits] using h.symm
  | cons c cs ih =>
    obtain ⟨d, hd, hrest⟩ := Option.bind_eq_some_iff.1 h
    have hlt : d < 10 := lt_of_digitValue? hd
    rw [List.length_cons, Nat.pow_succ, ← Nat.div_div_eq_div_mul, ih hrest]
    omega

/-! ## Natural numbers -/

theorem digitsOnto_append (fuel n : Nat) (acc : List Char) :
    digitsOnto fuel n acc = digitsOnto fuel n [] ++ acc := by
  induction fuel generalizing n acc with
  | zero => rfl
  | succ fuel ih =>
    simp only [digitsOnto]
    by_cases h : n / 10 = 0
    · simp [h]
    · rw [if_neg h, if_neg h, ih, ih (n / 10) [_]]
      simp

/-- What is read after the digits of `n` is read as if `n` had been read before. -/
theorem readDigits_digitsOnto (fuel n : Nat) (acc : List Char) (hn : n < 2 ^ fuel) :
    readDigits 0 (digitsOnto fuel n acc) = readDigits n acc := by
  induction fuel generalizing n acc with
  | zero =>
    have hzero : n = 0 := by simpa using hn
    rw [hzero]
    rfl
  | succ fuel ih =>
    have hlast : readDigits (n / 10) (digitChar (n % 10) :: acc) = readDigits n acc := by
      have hd : n % 10 < 10 := Nat.mod_lt _ (by omega)
      have hsum : n / 10 * 10 + n % 10 = n := by omega
      simp only [readDigits, digitValue?_digitChar hd, Option.bind_some, hsum]
    simp only [digitsOnto]
    by_cases h : n / 10 = 0
    · rw [if_pos h, ← hlast, h]
    · rw [if_neg h, ih (n / 10) _ (by omega), hlast]

theorem isDigit_of_mem_digitsOnto (fuel n : Nat) :
    ∀ c ∈ digitsOnto fuel n [], isDigit c = true := by
  induction fuel generalizing n with
  | zero =>
    intro c hc
    simp [digitsOnto] at hc
  | succ fuel ih =>
    intro c hc
    simp only [digitsOnto] at hc
    by_cases h : n / 10 = 0
    · rw [if_pos h, List.mem_singleton] at hc
      rw [hc]
      exact isDigit_digitChar _
    · rw [if_neg h, digitsOnto_append] at hc
      rcases List.mem_append.1 hc with hc | hc
      · exact ih (n / 10) c hc
      · rw [List.mem_singleton] at hc
        rw [hc]
        exact isDigit_digitChar _

theorem length_digitsOnto_le (fuel n k : Nat) (hk : 1 ≤ k) (hn : n < 10 ^ k) :
    (digitsOnto fuel n []).length ≤ k := by
  induction fuel generalizing n k with
  | zero => simp [digitsOnto]
  | succ fuel ih =>
    simp only [digitsOnto]
    by_cases h : n / 10 = 0
    · rw [if_pos h]
      simpa using hk
    · rw [if_neg h, digitsOnto_append, List.length_append, List.length_singleton]
      obtain ⟨k, rfl⟩ : ∃ j, k = j + 1 := ⟨k - 1, by omega⟩
      have hpow : 10 ^ (k + 1) = 10 ^ k * 10 := Nat.pow_succ 10 k
      have hdiv : n / 10 < 10 ^ k := by omega
      have hpos : 1 ≤ k := by
        rcases Nat.eq_zero_or_pos k with hzero | hpos
        · rw [hzero] at hdiv
          simp at hdiv
          omega
        · exact hpos
      have hlen := ih (n / 10) k hpos hdiv
      omega

theorem readDigits_natDigits (n : Nat) : readDigits 0 (natDigits n) = some n :=
  readDigits_digitsOnto (n.log2 + 1) n [] Nat.lt_log2_self

theorem isDigit_of_mem_natDigits {n : Nat} {c : Char} (hc : c ∈ natDigits n) :
    isDigit c = true :=
  isDigit_of_mem_digitsOnto _ n c hc

theorem length_natDigits_le {n k : Nat} (hk : 1 ≤ k) (hn : n < 10 ^ k) :
    (natDigits n).length ≤ k :=
  length_digitsOnto_le _ n k hk hn

theorem natDigits_inj {m n : Nat} (h : natDigits m = natDigits n) : m = n := by
  have hm := readDigits_natDigits m
  rw [h, readDigits_natDigits n] at hm
  exact (Option.some.inj hm).symm

theorem natDigits_ne_nil (n : Nat) : natDigits n ≠ [] := by
  unfold natDigits digitsOnto
  by_cases h : n / 10 = 0
  · simp [h]
  · rw [if_neg h, digitsOnto_append]
    simp

/-! ## Zeros in front -/

theorem readDigits_zeros (k : Nat) (cs : List Char) :
    readDigits 0 (List.replicate k '0' ++ cs) = readDigits 0 cs := by
  induction k with
  | zero => rfl
  | succ k ih =>
    have hzero : digitValue? '0' = some 0 := by decide
    rw [List.replicate_succ, List.cons_append, readDigits, hzero]
    exact ih

theorem readDigits_padded (width n : Nat) : readDigits 0 (padded width n) = some n := by
  unfold padded
  rw [readDigits_zeros, readDigits_natDigits]

theorem isDigit_of_mem_padded {width n : Nat} {c : Char} (hc : c ∈ padded width n) :
    isDigit c = true := by
  unfold padded at hc
  rcases List.mem_append.1 hc with hc | hc
  · rw [(List.mem_replicate.1 hc).2]
    decide
  · exact isDigit_of_mem_natDigits hc

theorem length_padded {width n : Nat} (hwidth : 1 ≤ width) (hn : n < 10 ^ width) :
    (padded width n).length = width := by
  have hlen := length_natDigits_le hwidth hn
  unfold padded
  rw [List.length_append, List.length_replicate]
  omega

theorem padded_ne_nil (width n : Nat) : padded width n ≠ [] := by
  unfold padded
  simp [natDigits_ne_nil]

/-! ## Integers -/

/-- The characters of a numeral are digits and the minus sign. -/
theorem isDigit_or_minus_of_mem_intDigits {i : Int} {c : Char} (hc : c ∈ intDigits i) :
    isDigit c = true ∨ c = '-' := by
  cases i with
  | ofNat n => exact Or.inl (isDigit_of_mem_natDigits hc)
  | negSucc n =>
    rcases List.mem_cons.1 hc with hc | hc
    · exact Or.inr hc
    · exact Or.inl (isDigit_of_mem_natDigits hc)

/-- The minus sign is no digit, so a numeral tells whether its number is negative. -/
theorem intDigits_inj {i j : Int} (h : intDigits i = intDigits j) : i = j := by
  have hminus : ∀ (n : Nat) (cs : List Char), natDigits n ≠ '-' :: cs := by
    intro n cs heq
    have hdigit : isDigit '-' = true := isDigit_of_mem_natDigits (n := n) (by simp [heq])
    exact absurd hdigit (by decide)
  cases i with
  | ofNat m =>
    cases j with
    | ofNat n => rw [natDigits_inj h]
    | negSucc n => exact absurd h (hminus m _)
  | negSucc m =>
    cases j with
    | ofNat n => exact absurd h.symm (hminus n _)
    | negSucc n =>
      have hsucc := natDigits_inj (List.cons.inj h).2
      rw [Nat.succ.inj hsucc]

/-! ## Signs -/

theorem isDigit_of_natDigits_eq {n : Nat} {c : Char} {cs : List Char} (h : natDigits n = c :: cs) :
    isDigit c = true :=
  isDigit_of_mem_natDigits (n := n) (by simp [h])

theorem readNat?_natDigits (n : Nat) : readNat? (natDigits n) = some n := by
  obtain ⟨c, cs, heq⟩ := List.exists_cons_of_ne_nil (natDigits_ne_nil n)
  have hread := readDigits_natDigits n
  rw [heq] at hread ⊢
  exact hread

/-- A numeral without a sign is read as it is. -/
theorem readUnsigned?_natDigits (n : Nat) : readUnsigned? (natDigits n) = some n := by
  unfold readUnsigned?
  split
  · rename_i cs heq
    exact absurd (isDigit_of_natDigits_eq heq) (by decide)
  · exact readNat?_natDigits n

/-- The numeral of an integer is read as that integer. -/
theorem readSigned?_intDigits (i : Int) : readSigned? (intDigits i) = some i := by
  cases i with
  | ofNat n =>
    unfold readSigned?
    split
    · rename_i cs heq
      exact absurd (isDigit_of_natDigits_eq heq) (by decide)
    · rw [intDigits, readUnsigned?_natDigits]
      rfl
  | negSucc n =>
    rw [intDigits, readSigned?, readNat?_natDigits]
    rfl

/-- A numeral has no blanks to lose. -/
theorem trim_intDigits (i : Int) : trim (intDigits i) = intDigits i := by
  have hblank : ∀ c ∈ intDigits i, isBlank c = false := by
    intro c hc
    rcases isDigit_or_minus_of_mem_intDigits hc with hdigit | rfl
    · exact isBlank_of_isDigit hdigit
    · decide
  apply trim_of_ends
  · intro c hc
    exact hblank c (List.mem_of_mem_head? hc)
  · intro c hc
    exact hblank c (List.mem_of_mem_getLast? hc)

end TaskBoard.Text
