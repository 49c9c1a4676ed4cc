import Mathlib.Data.List.TakeWhile
import TaskBoard.Proofs.Json.Reading
import TaskBoard.Proofs.Text.Numeral

/-!
# Integers read back

An integer is written without zeros in front, so the machine reads its numeral as one number, and
it ends at the mark that follows. The digits fit 64 bits, so none of them is left out and the
number has the value that was written.

* `lexesBefore_writeInt64`: an integer is one token before a mark;
* `Number.ofSpelling_natDigits`, `Number.ofSpelling_minus`: the value of a numeral;
* `reads_int64`: an integer is taken back from its token, at the ends of its range too.
-/

namespace TaskBoard

namespace Text

theorem digitChar_ne_zero {d : Nat} (hpos : 0 < d) : digitChar d ≠ '0' := by
  obtain ⟨d, rfl⟩ : ∃ k, d = k + 1 := ⟨d - 1, by omega⟩
  unfold digitChar
  split <;> simp_all

/-- The numeral of a positive number begins with no zero. -/
theorem head_digitsOnto (fuel n : Nat) (acc : List Char) (hpos : 0 < n) (hn : n < 2 ^ fuel) :
    (digitsOnto fuel n acc).head? ≠ some '0' := by
  induction fuel generalizing n acc with
  | zero =>
    have hzero : n = 0 := by simpa using hn
    omega
  | succ fuel ih =>
    simp only [digitsOnto]
    by_cases h : n / 10 = 0
    · rw [if_pos h, List.head?_cons, ne_eq, Option.some.injEq]
      exact digitChar_ne_zero (by omega)
    · rw [if_neg h]
      exact ih (n / 10) _ (by omega) (by omega)

/-- The numeral of a positive number, with its first digit in sight. -/
theorem exists_cons_natDigits {n : Nat} (hpos : 0 < n) : ∃ c cs, natDigits n = c :: cs
    ∧ isDigit c = true ∧ c ≠ '0' ∧ ∀ d ∈ cs, isDigit d = true := by
  obtain ⟨c, cs, heq⟩ := List.exists_cons_of_ne_nil (natDigits_ne_nil n)
  have hhead := head_digitsOnto (n.log2 + 1) n [] hpos Nat.lt_log2_self
  have hdigits : ∀ d ∈ c :: cs, isDigit d = true := by
    rw [← heq]
    exact fun d hd => isDigit_of_mem_natDigits hd
  refine ⟨c, cs, heq, hdigits c (by simp), ?_, fun d hd => hdigits d (by simp [hd])⟩
  rintro rfl
  have hzero : (natDigits n).head? = some '0' := by rw [heq]; rfl
  exact hhead hzero

/-- Digits after others make the number no smaller. -/
theorem le_of_readDigits {a n : Nat} {cs : List Char} (h : readDigits a cs = some n) : a ≤ n := by
  induction cs generalizing a with
  | nil => exact Nat.le_of_eq (Option.some.inj h)
  | cons c cs ih =>
    obtain ⟨d, -, hrest⟩ := Option.bind_eq_some_iff.1 h
    have hle := ih hrest
    omega

end Text

namespace Json

open Text Lexer

/-! ## One token -/

/-- Within a whole number the machine takes digit after digit. -/
theorem foldl_digits {cs : List Char} (hcs : ∀ c ∈ cs, isDigit c = true) (out : List Token)
    (spelling : List Char) :
    cs.foldl stepChar { out, mode := .number .integer spelling }
      = { out, mode := .number .integer (cs.reverse ++ spelling) } := by
  induction cs generalizing spelling with
  | nil => rfl
  | cons c cs ih =>
    have hc : isDigit c = true := hcs c (by simp)
    have hstep : stepChar { out, mode := .number .integer spelling } c
        = { out, mode := .number .integer (c :: spelling) } := by
      simp [stepChar, numberMove, hc]
    rw [List.foldl_cons, hstep, ih (fun d hd => hcs d (by simp [hd]))]
    simp

/-- A numeral leaves the machine within a number that may end there. -/
theorem foldl_intDigits (i : Int) (out : List Token) : ∃ place,
    (place = .zero ∨ place = .integer) ∧ (intDigits i).foldl stepChar { out }
      = { out, mode := .number place (intDigits i).reverse } := by
  -- zero is a numeral of its own, all others begin with another digit or the sign before one
  rcases i with (_ | n) | n
  · exact ⟨.zero, .inl rfl, rfl⟩
  · obtain ⟨c, cs, heq, hc, hne, hcs⟩ := exists_cons_natDigits (Nat.succ_pos n)
    have hdigits : intDigits (.ofNat (n + 1)) = c :: cs := heq
    have hspace : isSpace c = false := by
      rw [isDigit_iff] at hc
      simp only [isSpace, Bool.or_eq_false_iff, decide_eq_false_iff_not]
      refine ⟨⟨⟨?_, ?_⟩, ?_⟩, ?_⟩ <;> rintro rfl <;> revert hc <;> decide
    have hstart : stepChar { out } c = { out, mode := .number .integer [c] } := by
      simp [stepChar, start, hspace, hc, hne]
    refine ⟨.integer, .inr rfl, ?_⟩
    rw [hdigits, List.foldl_cons, hstart, foldl_digits hcs, List.reverse_cons]
  · obtain ⟨c, cs, heq, hc, hne, hcs⟩ := exists_cons_natDigits (Nat.succ_pos n)
    have hdigits : intDigits (.negSucc n) = '-' :: c :: cs := congrArg _ heq
    have hminus : stepChar { out } '-' = { out, mode := .number .minus ['-'] } := rfl
    have hfirst : stepChar { out, mode := .number .minus ['-'] } c
        = { out, mode := .number .integer [c, '-'] } := by
      simp [stepChar, numberMove, hc, hne]
    refine ⟨.integer, .inr rfl, ?_⟩
    rw [hdigits, List.foldl_cons, hminus, List.foldl_cons, hfirst, foldl_digits hcs]
    simp

/-- A whole number ends where a mark follows. -/
theorem numberMove_of_isMark {place : NumberPlace} {c : Char} (hc : isMark c = true)
    (hplace : place = .zero ∨ place = .integer) : numberMove place c = .ends := by
  simp only [isMark, Bool.or_eq_true, beq_iff_eq] at hc
  rcases hc with (rfl | rfl) | rfl <;> rcases hplace with rfl | rfl <;> rfl

/-- An integer is one token before a mark. -/
theorem lexesBefore_writeInt64 (i : Int64) :
    LexesBefore (writeInt64 i) [.number (intDigits i.toInt)] := by
  intro out c hc
  obtain ⟨place, hplace, hread⟩ := foldl_intDigits i.toInt out
  rw [writeInt64, hread]
  simp [stepChar, numberMove_of_isMark hc hplace]

/-! ## Its value -/

namespace Number

/-- Digits of a number of 64 bits are gathered one by one, and none is left out. -/
theorem foldl_addWhole {a n : Nat} {cs : List Char} (hread : readDigits a cs = some n)
    (hn : n ≤ maxWord) :
    cs.foldl (fun (g : Gathered) c => g.addWhole ((digitValue? c).getD 0))
      { significand := a, exponent := 0 } = { significand := n, exponent := 0 } := by
  induction cs generalizing a with
  | nil => rw [Option.some.inj hread]; rfl
  | cons c cs ih =>
    obtain ⟨d, hd, hrest⟩ := Option.bind_eq_some_iff.1 hread
    have hfits : a * 10 + d ≤ maxWord := (le_of_readDigits hrest).trans hn
    have hstep : Gathered.addWhole { significand := a, exponent := 0 } ((digitValue? c).getD 0)
        = { significand := a * 10 + d, exponent := 0 } := by
      simp [Gathered.addWhole, hd, hfits]
    rw [List.foldl_cons, hstep]
    exact ih hrest

theorem takeWhile_natDigits (n : Nat) : (natDigits n).takeWhile isDigit = natDigits n :=
  List.takeWhile_eq_self_iff.2 fun _ hc => isDigit_of_mem_natDigits hc

theorem dropWhile_natDigits (n : Nat) : (natDigits n).dropWhile isDigit = [] :=
  List.dropWhile_eq_nil_iff.2 fun _ hc => isDigit_of_mem_natDigits hc

/-- The numeral of a natural number stands for it. -/
theorem ofSpelling_natDigits {n : Nat} (hn : n ≤ maxWord) :
    ofSpelling (natDigits n) = .natural n := by
  have hgather := foldl_addWhole (readDigits_natDigits n) hn
  have hunsigned : ofUnsigned false (natDigits n) = .natural n := by
    simp [ofUnsigned, takeWhile_natDigits, dropWhile_natDigits, hgather]
  have hsign : ofSpelling (natDigits n) = ofUnsigned false (natDigits n) := by
    unfold ofSpelling
    split
    · rename_i cs heq
      have hdigit : isDigit '-' = true := isDigit_of_mem_natDigits (n := n) (by simp [heq])
      exact absurd hdigit (by decide)
    · rfl
  rw [hsign, hunsigned]

/-- So does a numeral after a minus sign, up to the least integer of 64 bits. -/
theorem ofSpelling_minus {n : Nat} (hpos : 1 ≤ n) (hn : n ≤ 9223372036854775808) :
    ofSpelling ('-' :: natDigits n) = .negative n := by
  have hword : n ≤ maxWord := hn.trans (by decide)
  have hgather := foldl_addWhole (readDigits_natDigits n) hword
  simp [ofSpelling, ofUnsigned, takeWhile_natDigits, dropWhile_natDigits, hgather, hpos, hn]

end Number

/-- An integer is taken back from its token. -/
theorem reads_int64 (i : Int64) : Reads readInt64 [.number (intDigits i.toInt)] i := by
  intro ts
  have hlt := i.toInt_lt
  have hle := i.le_toInt
  have hi := i.ofInt_toInt
  rw [List.singleton_append, readInt64]
  rcases hint : i.toInt with n | n
  · rw [hint, Int.ofNat_eq_natCast] at hlt hi
    have hsmall : n < 9223372036854775808 := by omega
    have hvalue : Number.ofSpelling (intDigits (.ofNat n)) = .natural n :=
      Number.ofSpelling_natDigits (by simp only [Number.maxWord]; omega)
    simp only [hvalue, if_pos hsmall]
    rw [← hi, Int64.ofInt_eq_ofNat]
  · rw [hint] at hle hi
    have hvalue : Number.ofSpelling (intDigits (.negSucc n)) = .negative (n + 1) :=
      Number.ofSpelling_minus (by omega) (by omega)
    have hneg : -((n + 1 : Nat) : Int) = .negSucc n := rfl
    simp only [hvalue]
    rw [hneg, hi]

end Json

end TaskBoard
