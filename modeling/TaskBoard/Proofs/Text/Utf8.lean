import TaskBoard.Text.Utf8
import Mathlib.Tactic.SplitIfs

/-!
# Text as bytes and back

The bytes of a text decode to the text, and of two texts the one whose bytes come first comes first.

* `utf8Decode_utf8Encode`: decoding what has been encoded;
* `utf8Encode_lt_iff`: the order of bytes is the order of characters.
-/

namespace TaskBoard.Text

/-! ## Bytes as numbers -/

section Bytes

variable {n : Nat} (hn : n < 256)

include hn

theorem toNat_byte : (UInt8.ofNat n).toNat = n := by
  simpa using hn

theorem le_byte_iff (b : UInt8) : b ≤ UInt8.ofNat n ↔ b.toNat ≤ n := by
  rw [UInt8.le_iff_toNat_le, toNat_byte hn]

theorem byte_le_iff (b : UInt8) : UInt8.ofNat n ≤ b ↔ n ≤ b.toNat := by
  rw [UInt8.le_iff_toNat_le, toNat_byte hn]

theorem byte_lt_iff (b : UInt8) : UInt8.ofNat n < b ↔ n < b.toNat := by
  rw [UInt8.lt_iff_toNat_lt, toNat_byte hn]

theorem byte_eq_iff (b : UInt8) : UInt8.ofNat n = b ↔ n = b.toNat := by
  rw [← UInt8.toNat_inj, toNat_byte hn]

end Bytes

theorem toNat_bounds (c : Char) :
    c.toNat < 0xD800 ∨ 0xDFFF < c.toNat ∧ c.toNat < 0x110000 := by
  exact c.valid

/-! ## Decoding -/

namespace Utf8

/-- A byte within its bounds ends a character that lacks one byte. -/
theorem step_last {out : List Symbol} {bits n : Nat} {low high : UInt8} {c : Char} (hn : n < 256)
    (hlow : low.toNat ≤ n) (hhigh : n ≤ high.toNat) (hc : bits * 64 + (n - 128) = c.toNat) :
    step ⟨out, some ⟨bits, 1, low, high⟩⟩ (UInt8.ofNat n) = ⟨.char c :: out, none⟩ := by
  have hbounds : low ≤ UInt8.ofNat n ∧ UInt8.ofNat n ≤ high :=
    ⟨(le_byte_iff hn low).2 hlow, (byte_le_iff hn high).2 hhigh⟩
  simp [step, hbounds, toNat_byte hn, hc]

/-- A byte within its bounds goes on with a character that lacks more. -/
theorem step_next {out : List Symbol} {bits left n : Nat} {low high : UInt8} (hn : n < 256)
    (hlow : low.toNat ≤ n) (hhigh : n ≤ high.toNat) (hleft : left ≠ 1) :
    step ⟨out, some ⟨bits, left, low, high⟩⟩ (UInt8.ofNat n)
      = ⟨out, some ⟨bits * 64 + (n - 128), left - 1, 0x80, 0xBF⟩⟩ := by
  have hbounds : low ≤ UInt8.ofNat n ∧ UInt8.ofNat n ≤ high :=
    ⟨(le_byte_iff hn low).2 hlow, (byte_le_iff hn high).2 hhigh⟩
  simp [step, hbounds, toNat_byte hn, hleft]

/-- A first byte of two. -/
theorem lead_two {n : Nat} (hlow : 0xC2 ≤ n) (hhigh : n ≤ 0xDF) :
    lead (UInt8.ofNat n) = some ⟨n - 0xC0, 1, 0x80, 0xBF⟩ := by
  have hn : n < 256 := by omega
  simp [lead, le_byte_iff hn, byte_le_iff hn, toNat_byte hn, hlow, hhigh]

/-- A first byte of three. -/
theorem lead_three {n : Nat} (hlow : 0xE0 ≤ n) (hhigh : n ≤ 0xEF) :
    lead (UInt8.ofNat n) = some ⟨n - 0xE0, 2, if n = 0xE0 then 0xA0 else 0x80,
      if n = 0xED then 0x9F else 0xBF⟩ := by
  have hn : n < 256 := by omega
  -- the first of them keeps out overlong forms, and one keeps out surrogates
  by_cases hfirst : n = 0xE0
  · subst hfirst
    decide
  by_cases hsurrogates : n = 0xED
  · subst hsurrogates
    decide
  have hnot : ¬ n ≤ 0xDF := by omega
  have hplain : 0xE1 ≤ n := by omega
  simp [lead, le_byte_iff hn, byte_le_iff hn, byte_eq_iff hn, toNat_byte hn, hnot, hplain, hhigh,
    hfirst, hsurrogates]

/-- A first byte of four. -/
theorem lead_four {n : Nat} (hlow : 0xF0 ≤ n) (hhigh : n ≤ 0xF4) :
    lead (UInt8.ofNat n) = some ⟨n - 0xF0, 3, if n = 0xF0 then 0x90 else 0x80,
      if n = 0xF4 then 0x8F else 0xBF⟩ := by
  have hn : n < 256 := by omega
  -- the first of them keeps out overlong forms, and the last one what is past the last character
  by_cases hfirst : n = 0xF0
  · subst hfirst
    decide
  by_cases hlast : n = 0xF4
  · subst hlast
    decide
  have hnot : ¬ n ≤ 0xDF := by omega
  have hnot' : ¬ n ≤ 0xEF := by omega
  have hsurrogates : n ≠ 0xED := by omega
  have hthree : n ≠ 0xE0 := by omega
  have hplain : 0xF1 ≤ n ∧ n ≤ 0xF3 := by omega
  simp [lead, le_byte_iff hn, byte_le_iff hn, byte_eq_iff hn, toNat_byte hn, hnot, hnot',
    hsurrogates, hthree, hplain, hfirst, hlast]

theorem start_lead {out : List Symbol} {n : Nat} {p : Pending} (hn : n < 256) (hlow : 0x80 ≤ n)
    (hlead : lead (UInt8.ofNat n) = some p) :
    step ⟨out, none⟩ (UInt8.ofNat n) = ⟨out, some p⟩ := by
  have hnot : ¬ UInt8.ofNat n < 0x80 := by
    rw [byte_lt_iff hn]
    exact Nat.not_lt.2 hlow
  simp [step, start, hnot, hlead]

/-- The bytes of a character decode to it. -/
theorem foldl_encodeChar (out : List Symbol) (c : Char) :
    (String.utf8EncodeChar c).foldl step ⟨out, none⟩ = ⟨.char c :: out, none⟩ := by
  have hbounds := toNat_bounds c
  have hval : c.val.toNat = c.toNat := rfl
  unfold String.utf8EncodeChar
  simp only [hval]
  split_ifs with h1 h2 h3
  · -- one byte
    have hn : c.toNat < 256 := by omega
    have hlt : UInt8.ofNat c.toNat < 0x80 := (byte_lt_iff hn _).2 (by simp; omega)
    simp [step, start, hlt, toNat_byte hn]
  · -- two bytes
    simp only [List.foldl_cons, List.foldl_nil]
    rw [start_lead (by omega) (by omega) (lead_two (by omega) (by omega))]
    exact step_last (by omega) (by simp) (by simp; omega) (by omega)
  · -- three bytes; the second one is bounded by the first
    simp only [List.foldl_cons, List.foldl_nil]
    rw [start_lead (by omega) (by omega) (lead_three (by omega) (by omega)),
      step_next (by omega) (by split_ifs <;> simp; omega) (by split_ifs <;> simp <;> omega)
        (by decide)]
    exact step_last (by omega) (by simp) (by simp; omega) (by omega)
  · -- four bytes; the second one is bounded by the first
    simp only [List.foldl_cons, List.foldl_nil]
    rw [start_lead (by omega) (by omega) (lead_four (by omega) (by omega)),
      step_next (by omega) (by split_ifs <;> simp; omega) (by split_ifs <;> simp <;> omega)
        (by decide),
      step_next (by omega) (by simp) (by simp; omega) (by decide)]
    exact step_last (by omega) (by simp) (by simp; omega) (by omega)

end Utf8

/-- What has been encoded decodes to what it was. -/
theorem utf8Decode_utf8Encode (cs : List Char) : utf8Decode (utf8Encode cs) = cs.map .char := by
  have hfold : ∀ out, (utf8Encode cs).foldl Utf8.step ⟨out, none⟩
      = ⟨(cs.map Symbol.char).reverse ++ out, none⟩ := by
    induction cs with
    | nil => intro out; rfl
    | cons c cs ih =>
      intro out
      rw [utf8Encode, List.flatMap_cons, List.foldl_append, Utf8.foldl_encodeChar]
      rw [← utf8Encode, ih]
      simp
  unfold utf8Decode
  rw [hfold]
  simp [Utf8.finish]

theorem strictText_map_char (cs : List Char) : strictText (cs.map .char) = some cs := by
  induction cs with
  | nil => rfl
  | cons c cs ih => simp [strictText, ih]

theorem lossyText_map_char (cs : List Char) : lossyText (cs.map .char) = cs := by
  simp [lossyText, List.map_map, Function.comp_def]

/-! ## Order -/

/-- Two byte strings that differ first in a byte, at which the first is less. -/
inductive FirstLess : List UInt8 → List UInt8 → Prop where
  | here {m n : Nat} (xs ys : List UInt8) (hm : m < n) (hn : n < 256) :
      FirstLess (.ofNat m :: xs) (.ofNat n :: ys)
  | later (x : UInt8) {xs ys : List UInt8} (h : FirstLess xs ys) : FirstLess (x :: xs) (x :: ys)

theorem FirstLess.append_lt {xs ys : List UInt8} (h : FirstLess xs ys) (zs zs' : List UInt8) :
    xs ++ zs < ys ++ zs' := by
  induction h with
  | @here m n xs ys hm hn =>
    rw [List.cons_append, List.cons_append, List.cons_lt_cons_iff]
    left
    rw [byte_lt_iff (by omega), toNat_byte hn]
    exact hm
  | later x h ih =>
    rw [List.cons_append, List.cons_append, List.cons_lt_cons_iff]
    exact Or.inr ⟨rfl, ih⟩

theorem FirstLess.cons {m n : Nat} {xs ys : List UInt8} (hn : n < 256) (hle : m ≤ n)
    (hrest : m = n → FirstLess xs ys) : FirstLess (.ofNat m :: xs) (.ofNat n :: ys) := by
  rcases Nat.lt_or_eq_of_le hle with hlt | heq
  · exact .here xs ys hlt hn
  · rw [heq]
    exact .later _ (hrest heq)

/-- The bytes of the lesser of two characters are less. -/
theorem firstLess_encodeChar {c d : Char} (h : c.toNat < d.toNat) :
    FirstLess (String.utf8EncodeChar c) (String.utf8EncodeChar d) := by
  have hc : c.val.toNat = c.toNat := rfl
  have hd : d.val.toNat = d.toNat := rfl
  have hbounds := toNat_bounds d
  unfold String.utf8EncodeChar
  simp only [hc, hd]
  generalize c.toNat = m at h ⊢
  generalize d.toNat = n at h hbounds ⊢
  -- by the numbers of bytes; where they are the same, one byte after the other
  split_ifs
  · exact .here [] [] h (by omega)
  · exact .here _ _ (by omega) (by omega)
  · exact .here _ _ (by omega) (by omega)
  · exact .here _ _ (by omega) (by omega)
  · omega
  · refine .cons (by omega) (by omega) fun h₁ => ?_
    exact .here [] [] (by omega) (by omega)
  · exact .here _ _ (by omega) (by omega)
  · exact .here _ _ (by omega) (by omega)
  · omega
  · omega
  · refine .cons (by omega) (by omega) fun h₁ => .cons (by omega) (by omega) fun h₂ => ?_
    exact .here [] [] (by omega) (by omega)
  · exact .here _ _ (by omega) (by omega)
  · omega
  · omega
  · omega
  · refine .cons (by omega) (by omega) fun h₁ => .cons (by omega) (by omega) fun h₂ =>
      .cons (by omega) (by omega) fun h₃ => ?_
    exact .here [] [] (by omega) (by omega)

theorem encodeChar_ne_nil (c : Char) : String.utf8EncodeChar c ≠ [] := by
  unfold String.utf8EncodeChar
  simp only
  split_ifs <;> exact List.cons_ne_nil _ _

theorem append_lt_append_left_iff (xs : List UInt8) {ys zs : List UInt8} :
    xs ++ ys < xs ++ zs ↔ ys < zs := by
  induction xs with
  | nil => rfl
  | cons x xs ih =>
    rw [List.cons_append, List.cons_append, List.cons_lt_cons_iff, ih]
    simp

/-- Of two texts the one whose bytes come first comes first. -/
theorem utf8Encode_lt_iff (cs ds : List Char) : utf8Encode cs < utf8Encode ds ↔ cs < ds := by
  have hnil : ∀ (c : Char) (cs : List Char), [] < utf8Encode (c :: cs) := by
    intro c cs
    unfold utf8Encode
    rw [List.flatMap_cons]
    cases hbytes : String.utf8EncodeChar c with
    | nil => exact absurd hbytes (encodeChar_ne_nil c)
    | cons b bs => exact List.nil_lt_cons _ _
  induction cs generalizing ds with
  | nil =>
    cases ds with
    | nil => simp [utf8Encode]
    | cons d ds => exact iff_of_true (hnil d ds) (List.nil_lt_cons _ _)
  | cons c cs ih =>
    cases ds with
    | nil => exact iff_of_false (List.not_lt_nil _) (List.not_lt_nil _)
    | cons d ds =>
      rw [List.cons_lt_cons_iff]
      unfold utf8Encode
      rw [List.flatMap_cons, List.flatMap_cons]
      rcases Nat.lt_trichotomy c.toNat d.toNat with hlt | heq | hgt
      · have hcd : c < d := hlt
        exact iff_of_true ((firstLess_encodeChar hlt).append_lt _ _) (Or.inl hcd)
      · have hcd : c = d := Char.toNat_inj.1 heq
        rw [hcd, append_lt_append_left_iff]
        exact (ih ds).trans (by simp)
      · have hdc : d < c := hgt
        refine iff_of_false (List.lt_asymm ((firstLess_encodeChar hgt).append_lt _ _)) ?_
        rintro (hcd | ⟨rfl, -⟩)
        · exact Char.lt_asymm hcd hdc
        · exact Char.lt_irrefl _ hdc

end TaskBoard.Text
