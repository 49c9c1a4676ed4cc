import TaskBoard.Proofs.Text.Utf8
import TaskBoard.Text.Percent

/-!
# Percent-encoding and back

A text that has been percent-encoded is decoded to what it was, as long as a percent sign is never
kept, and parts without a separator are found again between the separators.

* `percentDecode_percentEncode`: the bytes after decoding are those of the text;
* `forall_mem_percentEncode`: what is true of kept characters, percent signs and digits is true of
  the whole encoding;
* `splitAtAll_append`, `splitAtAll_flatMap`: parts are found again between separators.
-/

namespace TaskBoard.Text

variable {keep : Char → Bool} {c : Char}

/-! ## Decoding -/

/-- A byte other than a percent sign stands for itself. -/
theorem percentDecode_cons_of_ne {b : UInt8} (h : b ≠ 0x25) (rest : List UInt8) :
    percentDecode (b :: rest) = b :: percentDecode rest := by
  rw [percentDecode.eq_2]
  exact fun _ _ _ hb _ => h hb

theorem hexByte?_hexUpper {d : Nat} (hd : d < 16) :
    hexByte? (UInt8.ofNat (hexUpper d).toNat) = some (UInt8.ofNat d) := by
  revert d
  decide

theorem utf8EncodeChar_ascii (h : c.toNat < 0x80) :
    String.utf8EncodeChar c = [UInt8.ofNat c.toNat] := by
  have hle : c.val.toNat ≤ 127 := Nat.le_of_lt_succ h
  simp only [String.utf8EncodeChar, hle, if_true]
  rfl

theorem hexUpper_ascii {d : Nat} (hd : d < 16) : (hexUpper d).toNat < 0x80 := by
  revert d
  decide

/-- The three characters of a byte are decoded to it. -/
theorem percentDecode_percentByte (b : UInt8) (rest : List UInt8) :
    percentDecode (utf8Encode (percentByte b) ++ rest) = b :: percentDecode rest := by
  have hb : b.toNat < 256 := b.toNat_lt
  have hhigh : b.toNat / 16 < 16 := by omega
  have hlow : b.toNat % 16 < 16 := by omega
  have hencode : utf8Encode (percentByte b) = [0x25, UInt8.ofNat (hexUpper (b.toNat / 16)).toNat,
      UInt8.ofNat (hexUpper (b.toNat % 16)).toNat] := by
    simp only [utf8Encode, percentByte, List.flatMap_cons, List.flatMap_nil,
      utf8EncodeChar_ascii (hexUpper_ascii hhigh), utf8EncodeChar_ascii (hexUpper_ascii hlow)]
    rfl
  have hwhole : UInt8.ofNat (b.toNat / 16) * 16 + UInt8.ofNat (b.toNat % 16) = b := by
    rw [← UInt8.toNat_inj]
    simp
    omega
  rw [hencode]
  simp only [List.cons_append, List.nil_append, percentDecode, hexByte?_hexUpper hhigh,
    hexByte?_hexUpper hlow, hwhole]

theorem percentDecode_percentBytes (bs rest : List UInt8) :
    percentDecode (utf8Encode (bs.flatMap percentByte) ++ rest) = bs ++ percentDecode rest := by
  induction bs with
  | nil => rfl
  | cons b bs ih =>
    have hsplit : utf8Encode ((b :: bs).flatMap percentByte)
        = utf8Encode (percentByte b) ++ utf8Encode (bs.flatMap percentByte) := by
      simp [utf8Encode]
    rw [hsplit, List.append_assoc, percentDecode_percentByte, ih, List.cons_append]

/-- A character is decoded to its bytes, kept or not. -/
theorem percentDecode_percentChar (hkeep : keep '%' = false) (c : Char) (rest : List UInt8) :
    percentDecode (utf8Encode (percentChar keep c) ++ rest)
      = String.utf8EncodeChar c ++ percentDecode rest := by
  unfold percentChar
  by_cases hkept : (decide (c.toNat < 0x80) && keep c) = true
  · obtain ⟨hascii, hc⟩ := Bool.and_eq_true_iff.1 hkept
    have hlt : c.toNat < 0x80 := of_decide_eq_true hascii
    -- a percent sign is not kept, so the byte begins no escape
    have hne : UInt8.ofNat c.toNat ≠ 0x25 := by
      intro heq
      have hcode : c.toNat = 0x25 := (byte_eq_iff (by omega) _).1 heq
      have hpercent : c = '%' := Char.toNat_inj.1 hcode
      rw [hpercent, hkeep] at hc
      cases hc
    rw [if_pos hkept, utf8Encode, List.flatMap_singleton, utf8EncodeChar_ascii hlt]
    exact percentDecode_cons_of_ne hne rest
  · rw [if_neg hkept]
    exact percentDecode_percentBytes _ rest

/-- What has been percent-encoded is decoded to the bytes of the text. -/
theorem percentDecode_percentEncode (hkeep : keep '%' = false) (cs : List Char) :
    percentDecode (utf8Encode (percentEncode keep cs)) = utf8Encode cs := by
  induction cs with
  | nil => rfl
  | cons c cs ih =>
    have hsplit : utf8Encode (percentEncode keep (c :: cs))
        = utf8Encode (percentChar keep c) ++ utf8Encode (percentEncode keep cs) := by
      simp [utf8Encode, percentEncode]
    rw [hsplit, percentDecode_percentChar hkeep, ih]
    rfl

/-! ## What an encoding is made of -/

/-- What is true of kept characters, percent signs and digits is true of an encoding. -/
theorem forall_mem_percentEncode {P : Char → Prop} (hkept : ∀ c, keep c = true → P c)
    (hpercent : P '%') (hdigit : ∀ d < 16, P (hexUpper d)) (cs : List Char) :
    ∀ c ∈ percentEncode keep cs, P c := by
  have hbyte : ∀ b, ∀ c ∈ percentByte b, P c := by
    intro b c hc
    have hb : b.toNat < 256 := b.toNat_lt
    simp only [percentByte, List.mem_cons, List.not_mem_nil, or_false] at hc
    rcases hc with rfl | rfl | rfl
    · exact hpercent
    · exact hdigit _ (by omega)
    · exact hdigit _ (by omega)
  intro c hc
  obtain ⟨d, -, hd⟩ := List.mem_flatMap.1 hc
  unfold percentChar at hd
  split at hd
  · rename_i hkeep
    rw [List.mem_singleton.1 hd]
    exact hkept d (Bool.and_eq_true_iff.1 hkeep).2
  · obtain ⟨b, -, hb⟩ := List.mem_flatMap.1 hd
    exact hbyte b c hb

theorem percentEncode_ne_nil {cs : List Char} (h : cs ≠ []) : percentEncode keep cs ≠ [] := by
  obtain ⟨c, rest, rfl⟩ := List.exists_cons_of_ne_nil h
  intro hnil
  have hc : percentChar keep c = [] := (List.flatMap_eq_nil_iff.1 hnil) c List.mem_cons_self
  unfold percentChar at hc
  split at hc
  · cases hc
  · obtain ⟨b, bs, hbytes⟩ := List.exists_cons_of_ne_nil (encodeChar_ne_nil c)
    rw [hbytes] at hc
    cases hc

/-! ## Parts between separators -/

/-- A part goes in front of what a separator or the end begins. -/
theorem splitAtAll_append {α : Type} {p : α → Bool} {part rest : List α} {parts : List (List α)}
    (hpart : ∀ a ∈ part, p a = false) (hrest : splitAtAll p rest = [] :: parts) :
    splitAtAll p (part ++ rest) = part :: parts := by
  induction part with
  | nil => exact hrest
  | cons a part ih =>
    have ha : p a = false := hpart a List.mem_cons_self
    have htail := ih fun b hb => hpart b (List.mem_cons_of_mem _ hb)
    simp [splitAtAll, ha, htail]

/-- Parts that each have a separator in front are found again. -/
theorem splitAtAll_flatMap {α : Type} [BEq α] [LawfulBEq α] {separator : α}
    {parts : List (List α)} (h : ∀ part ∈ parts, ∀ a ∈ part, a ≠ separator) :
    splitAtAll (· == separator) (parts.flatMap (separator :: ·)) = [] :: parts := by
  induction parts with
  | nil => rfl
  | cons part parts ih =>
    have hrest := ih fun other hother => h other (List.mem_cons_of_mem _ hother)
    have hpart : ∀ a ∈ part, (a == separator) = false := fun a ha =>
      beq_false_of_ne (h part List.mem_cons_self a ha)
    simp [splitAtAll, splitAtAll_append hpart hrest]

/-- Parts that each have a separator behind are found again, with nothing behind the last one. -/
theorem splitAtAll_ended {α : Type} [BEq α] [LawfulBEq α] {separator : α} {parts : List (List α)}
    (h : ∀ part ∈ parts, separator ∉ part) :
    splitAtAll (· == separator) (parts.flatMap (· ++ [separator])) = parts ++ [[]] := by
  induction parts with
  | nil => rfl
  | cons part parts ih =>
    have hrest := ih fun other hother => h other (List.mem_cons_of_mem _ hother)
    have hpart : ∀ a ∈ part, (a == separator) = false := fun a ha =>
      beq_false_of_ne fun heq => h part List.mem_cons_self (heq ▸ ha)
    rw [List.flatMap_cons, List.append_assoc, List.cons_append]
    refine splitAtAll_append hpart ?_
    simp [splitAtAll, hrest]

end TaskBoard.Text
