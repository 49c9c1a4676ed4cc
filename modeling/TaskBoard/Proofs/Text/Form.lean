import TaskBoard.Proofs.Text.Numeral
import TaskBoard.Proofs.Text.Percent
import Mathlib.Data.List.TakeWhile

/-!
# Forms read back

A form is joined from its pairs by marks that no encoded name or value can hold, so the pairs are
found again, whatever characters their names and values are made of.

* `of_isFormChar`, `forall_mem_formEncode`: what encoded names and values are made of;
* `formDecode_formEncode`: a name or value is decoded to what it was;
* `formPairs_joined`: the pairs of a form are those that it has been joined from.
-/

namespace TaskBoard.Text

/-! ## Bytes of ASCII texts -/

theorem utf8Encode_append (cs ds : List Char) :
    utf8Encode (cs ++ ds) = utf8Encode cs ++ utf8Encode ds := by
  simp [utf8Encode]

/-- An ASCII text has one byte for each character. -/
theorem mem_utf8Encode_ascii {cs : List Char} (h : ∀ c ∈ cs, c.toNat < 0x80) {b : UInt8}
    (hb : b ∈ utf8Encode cs) : ∃ c ∈ cs, b = UInt8.ofNat c.toNat := by
  obtain ⟨c, hc, hbyte⟩ := List.mem_flatMap.1 hb
  rw [utf8EncodeChar_ascii (h c hc)] at hbyte
  exact ⟨c, hc, List.mem_singleton.1 hbyte⟩

/-- A character that an ASCII text does not hold leaves no byte in it. -/
theorem ne_of_mem_utf8Encode {cs : List Char} (h : ∀ c ∈ cs, c.toNat < 0x80) {d : Char}
    (hd : d.toNat < 0x80) (hne : ∀ c ∈ cs, c ≠ d) :
    ∀ b ∈ utf8Encode cs, b ≠ UInt8.ofNat d.toNat := by
  intro b hb heq
  obtain ⟨c, hc, rfl⟩ := mem_utf8Encode_ascii h hb
  have hascii : c.toNat < 0x80 := h c hc
  have hcode : c.toNat = (UInt8.ofNat d.toNat).toNat := (byte_eq_iff (by omega) _).1 heq
  rw [toNat_byte (by omega)] at hcode
  exact hne c hc (Char.toNat_inj.1 hcode)

/-! ## Names and values -/

/-- Whether the character may stand in an encoded name or value. -/
def isFormChar (c : Char) : Bool := keptInForm c || c == '%' || c == '+'

theorem ascii_of_keptInForm {c : Char} (h : keptInForm c = true) : c.toNat < 0x80 := by
  have hlower : ('a' ≤ c ∧ c ≤ 'z') ↔ 97 ≤ c.toNat ∧ c.toNat ≤ 122 := Iff.rfl
  have hupper : ('A' ≤ c ∧ c ≤ 'Z') ↔ 65 ≤ c.toNat ∧ c.toNat ≤ 90 := Iff.rfl
  simp only [keptInForm, Bool.or_eq_true, Bool.and_eq_true, decide_eq_true_eq, beq_iff_eq,
    isDigit_iff, hlower, hupper] at h
  rcases h with (((((h | h) | h) | rfl) | rfl) | rfl) | rfl
  · omega
  · omega
  · omega
  all_goals decide

/-- No encoded name or value holds a mark of the form, or the end of a query. -/
theorem of_isFormChar {c : Char} (h : isFormChar c = true) :
    c.toNat < 0x80 ∧ c ≠ '&' ∧ c ≠ '=' ∧ c ≠ '#' := by
  have hcodes : ∀ n < 0x80, isFormChar (Char.ofNat n) = true →
      Char.ofNat n ≠ '&' ∧ Char.ofNat n ≠ '=' ∧ Char.ofNat n ≠ '#' := by
    decide +kernel
  have hascii : c.toNat < 0x80 := by
    simp only [isFormChar, Bool.or_eq_true, beq_iff_eq] at h
    rcases h with (h | rfl) | rfl
    · exact ascii_of_keptInForm h
    · decide
    · decide
  have hc := hcodes c.toNat hascii
  rw [Char.ofNat_toNat] at hc
  exact ⟨hascii, hc h⟩

/-- The characters of a percent-encoded text, when those of a form are kept. -/
theorem forall_mem_percentChar (c : Char) :
    ∀ d ∈ percentChar keptInForm c, isFormChar d = true ∧ d ≠ '+' := by
  have hkept : ∀ d, keptInForm d = true → isFormChar d = true ∧ d ≠ '+' := by
    intro d hd
    refine ⟨by simp [isFormChar, hd], ?_⟩
    rintro rfl
    exact absurd hd (by decide)
  have hall := forall_mem_percentEncode hkept (by decide) (by decide) [c]
  simpa [percentEncode] using hall

theorem forall_mem_formEncode (cs : List Char) : ∀ c ∈ formEncode cs, isFormChar c = true := by
  intro c hc
  obtain ⟨d, -, hd⟩ := List.mem_flatMap.1 hc
  by_cases hspace : d = ' '
  · rw [if_pos hspace, List.mem_singleton] at hd
    rw [hd]
    decide
  · rw [if_neg hspace] at hd
    exact (forall_mem_percentChar d c hd).1

/-- With its plus signs taken for spaces, an encoded text is one in which spaces were kept. -/
theorem unplus_formEncode (cs : List Char) :
    (utf8Encode (formEncode cs)).map (fun b => if b = 0x2B then 0x20 else b)
      = utf8Encode (percentEncode (fun c => keptInForm c || c == ' ') cs) := by
  induction cs with
  | nil => rfl
  | cons c cs ih =>
    rw [formEncode, percentEncode, List.flatMap_cons, List.flatMap_cons, utf8Encode_append,
      utf8Encode_append, List.map_append]
    refine congrArg₂ (· ++ ·) ?_ ih
    by_cases hspace : c = ' '
    · subst hspace
      decide
    · -- what is encoded otherwise has no plus sign in it
      have hsame : percentChar (fun c => keptInForm c || c == ' ') c = percentChar keptInForm c := by
        simp [percentChar, hspace]
      have hascii : ∀ d ∈ percentChar keptInForm c, d.toNat < 0x80 := fun d hd =>
        (of_isFormChar (forall_mem_percentChar c d hd).1).1
      have hplus := ne_of_mem_utf8Encode hascii (d := '+') (by decide) fun d hd =>
        (forall_mem_percentChar c d hd).2
      rw [if_neg hspace, hsame]
      refine (List.map_congr_left fun b hb => ?_).trans (List.map_id _)
      exact if_neg (hplus b hb)

/-- A name or value is decoded to what it was. -/
theorem formDecode_formEncode (cs : List Char) : formDecode (utf8Encode (formEncode cs)) = cs := by
  rw [formDecode, unplus_formEncode, percentDecode_percentEncode (by decide),
    utf8Decode_utf8Encode, lossyText_map_char]

/-! ## Pairs -/

/-- The bytes of a pair: its mark stands behind the name. -/
theorem utf8Encode_formPair (name value : List Char) :
    utf8Encode (formPair name value)
      = utf8Encode (formEncode name) ++ 0x3D :: utf8Encode (formEncode value) := by
  rw [formPair, utf8Encode_append]
  rfl

/-- No pair holds the mark between pairs. -/
theorem forall_mem_formPair (name value : List Char) :
    ∀ b ∈ utf8Encode (formPair name value), b ≠ 0x26 := by
  have hchars : ∀ c ∈ formPair name value, c.toNat < 0x80 ∧ c ≠ '&' := by
    intro c hc
    rcases List.mem_append.1 hc with hc | hc
    · have hform := of_isFormChar (forall_mem_formEncode name c hc)
      exact ⟨hform.1, hform.2.1⟩
    · rcases List.mem_cons.1 hc with rfl | hc
      · decide
      · have hform := of_isFormChar (forall_mem_formEncode value c hc)
        exact ⟨hform.1, hform.2.1⟩
  exact ne_of_mem_utf8Encode (d := '&') (fun c hc => (hchars c hc).1) (by decide) fun c hc =>
    (hchars c hc).2

/-- Name and value are found on the two sides of the first mark. -/
theorem readPair_formPair (pair : List Char × List Char) :
    let bytes := utf8Encode (formPair pair.1 pair.2)
    (formDecode (bytes.takeWhile (· != 0x3D)), formDecode ((bytes.dropWhile (· != 0x3D)).drop 1))
      = pair := by
  have hname : ∀ b ∈ utf8Encode (formEncode pair.1), (b != 0x3D) = true := by
    have hform := forall_mem_formEncode pair.1
    have hne := ne_of_mem_utf8Encode (d := '=') (fun c hc => (of_isFormChar (hform c hc)).1)
      (by decide) fun c hc => (of_isFormChar (hform c hc)).2.2.1
    intro b hb
    exact bne_iff_ne.2 (hne b hb)
  simp only [utf8Encode_formPair]
  rw [List.takeWhile_append_of_pos hname, List.dropWhile_append_of_pos hname]
  simp [formDecode_formEncode]

/-- The bytes of pairs that each have a mark in front. -/
theorem utf8Encode_marked (pairs : List (List Char × List Char)) :
    utf8Encode (pairs.flatMap fun pair => '&' :: formPair pair.1 pair.2)
      = (pairs.map fun pair => utf8Encode (formPair pair.1 pair.2)).flatMap (0x26 :: ·) := by
  induction pairs with
  | nil => rfl
  | cons pair pairs ih =>
    rw [List.flatMap_cons, utf8Encode_append, ih, List.map_cons, List.flatMap_cons]
    rfl

/-- The pairs of a form are those that it has been joined from. -/
theorem formPairs_joined (pair : List Char × List Char) (pairs : List (List Char × List Char)) :
    formPairs (utf8Encode (formPair pair.1 pair.2
      ++ pairs.flatMap fun pair => '&' :: formPair pair.1 pair.2)) = pair :: pairs := by
  have hparts : ∀ part ∈ pairs.map fun pair => utf8Encode (formPair pair.1 pair.2),
      ∀ b ∈ part, b ≠ 0x26 := by
    intro part hpart
    obtain ⟨p, -, rfl⟩ := List.mem_map.1 hpart
    exact forall_mem_formPair p.1 p.2
  have hfirst : ∀ b ∈ utf8Encode (formPair pair.1 pair.2), (b == 0x26) = false := fun b hb =>
    beq_false_of_ne (forall_mem_formPair pair.1 pair.2 b hb)
  have hsplit := splitAtAll_append hfirst (splitAtAll_flatMap hparts)
  have hnonempty : ∀ part ∈ (pair :: pairs).map fun pair => utf8Encode (formPair pair.1 pair.2),
      (!part.isEmpty) = true := by
    intro part hpart
    obtain ⟨p, -, rfl⟩ := List.mem_map.1 hpart
    simp [utf8Encode_formPair]
  rw [formPairs, utf8Encode_append, utf8Encode_marked, hsplit]
  rw [← List.map_cons (f := fun pair : List Char × List Char => utf8Encode (formPair pair.1 pair.2)),
    List.filter_eq_self.2 hnonempty, List.map_map]
  exact (List.map_congr_left fun p _ => readPair_formPair p).trans (List.map_id _)

end TaskBoard.Text
