import TaskBoard.Text.Blank

/-!
# Trimmed texts

A text that begins and ends with characters that are not blank has nothing to lose, and that is how
trimming leaves every text.

* `trim_of_ends`: trimming leaves a text without blanks at its ends as it is;
* `trimmed_trimmed`: a trimmed text is trimmed;
* `isCore_iff`: trimming leaves the one text that stands between blanks and has none at its ends;
* `isBlank_iff`: the blank characters are the 25 with the property `White_Space`;
* `isBody_iff`, `trimmed_padded`: the same for strings, and that more white space changes nothing.
-/

namespace TaskBoard.Text

theorem isBlank_of_head?_trimLeft {cs : List Char} {c : Char} (h : (trimLeft cs).head? = some c) :
    isBlank c = false := by
  have hhead := List.head?_dropWhile_not isBlank cs
  unfold trimLeft at h
  rw [h] at hhead
  simpa using hhead

theorem trimLeft_of_head {cs : List Char} (h : ∀ c, cs.head? = some c → isBlank c = false) :
    trimLeft cs = cs := by
  cases cs with
  | nil => rfl
  | cons c cs => simp [trimLeft, h c rfl]

theorem trimRight_eq_reverse (cs : List Char) : trimRight cs = (trimLeft cs.reverse).reverse := rfl

theorem trimRight_of_last {cs : List Char} (h : ∀ c, cs.getLast? = some c → isBlank c = false) :
    trimRight cs = cs := by
  have hhead : ∀ c, cs.reverse.head? = some c → isBlank c = false := by
    simpa [List.head?_reverse] using h
  rw [trimRight_eq_reverse, trimLeft_of_head hhead, List.reverse_reverse]

/-- What is left of a text begins as the text does. -/
theorem trimRight_isPrefix (cs : List Char) : trimRight cs <+: cs := by
  have hsuffix : trimLeft cs.reverse <:+ cs.reverse := List.dropWhile_suffix isBlank
  rw [trimRight_eq_reverse]
  simpa using List.reverse_prefix.2 hsuffix

/-- Trimming leaves a text without blanks at its ends as it is. -/
theorem trim_of_ends {cs : List Char} (hhead : ∀ c, cs.head? = some c → isBlank c = false)
    (hlast : ∀ c, cs.getLast? = some c → isBlank c = false) : trim cs = cs := by
  rw [trim, trimLeft_of_head hhead, trimRight_of_last hlast]

theorem isBlank_of_head?_trim {cs : List Char} {c : Char} (h : (trim cs).head? = some c) :
    isBlank c = false := by
  obtain ⟨rest, hrest⟩ := trimRight_isPrefix (trimLeft cs)
  have hhead : (trimLeft cs).head? = some c := by
    rw [← hrest, List.head?_append]
    unfold trim at h
    simp [h]
  exact isBlank_of_head?_trimLeft hhead

theorem isBlank_of_getLast?_trim {cs : List Char} {c : Char} (h : (trim cs).getLast? = some c) :
    isBlank c = false := by
  rw [trim, trimRight_eq_reverse, List.getLast?_reverse] at h
  exact isBlank_of_head?_trimLeft h

theorem trim_trim (cs : List Char) : trim (trim cs) = trim cs :=
  trim_of_ends (fun _ => isBlank_of_head?_trim) fun _ => isBlank_of_getLast?_trim

/-- A trimmed text is trimmed. -/
theorem trimmed_trimmed (s : String) : trimmed (trimmed s) = trimmed s := by
  simp [trimmed, trim_trim]

/-! ## What stands between blanks -/

/-- A text stands between blanks in another and has none at its ends. -/
structure IsCore (cs text : List Char) : Prop where
  between : ∃ left right, text = left ++ cs ++ right ∧ (∀ c ∈ left, isBlank c = true)
    ∧ ∀ c ∈ right, isBlank c = true
  head : ∀ c, cs.head? = some c → isBlank c = false
  last : ∀ c, cs.getLast? = some c → isBlank c = false

theorem isCore_trim (text : List Char) : IsCore (trim text) text where
  between := by
    refine ⟨text.takeWhile isBlank, ((trimLeft text).reverse.takeWhile isBlank).reverse, ?_, ?_, ?_⟩
    · have hright : trim text ++ ((trimLeft text).reverse.takeWhile isBlank).reverse
          = trimLeft text := by
        rw [trim, trimRight, ← List.reverse_append, List.takeWhile_append_dropWhile,
          List.reverse_reverse]
      rw [List.append_assoc, hright, trimLeft, List.takeWhile_append_dropWhile]
    · intro c hc
      exact List.all_eq_true.1 List.all_takeWhile c hc
    · intro c hc
      exact List.all_eq_true.1 List.all_takeWhile c (List.mem_reverse.1 hc)
  head _ := isBlank_of_head?_trim
  last _ := isBlank_of_getLast?_trim

/-- Trimming leaves the one text that stands between blanks and has none at its ends. -/
theorem isCore_iff {cs text : List Char} : IsCore cs text ↔ trim text = cs := by
  constructor
  · intro h
    rcases h.between with ⟨left, right, rfl, hleft, hright⟩
    have hdropped : trimLeft (left ++ (cs ++ right)) = trimLeft (cs ++ right) :=
      List.dropWhile_append_of_pos hleft
    rw [List.append_assoc, trim, hdropped]
    rcases cs with _ | ⟨c, cs⟩
    · -- nothing but blanks
      rw [List.nil_append, (trimLeft_eq_nil_iff right).2 hright]
      rfl
    · have hkept : trimLeft (c :: cs ++ right) = c :: cs ++ right :=
        trimLeft_of_head fun d hd => h.head d (by simpa using hd)
      have hback : trimRight (c :: cs ++ right) = trimRight (c :: cs) := by
        have hall : ∀ d ∈ right.reverse, isBlank d = true := by
          intro d hd
          exact hright d (List.mem_reverse.1 hd)
        rw [trimRight, List.reverse_append, List.dropWhile_append_of_pos hall, trimRight]
      rw [hkept, hback, trimRight_of_last h.last]
  · intro h
    rw [← h]
    exact isCore_trim text

/-! ## White space around a string -/

/-- The characters with the Unicode property `White_Space`, one by one. -/
def whiteSpace : List Char :=
  ['\t', '\n', '\x0b', '\x0c', '\r', ' ', '\u0085', '\u00a0', '\u1680', '\u2000', '\u2001',
    '\u2002', '\u2003', '\u2004', '\u2005', '\u2006', '\u2007', '\u2008', '\u2009', '\u200a',
    '\u2028', '\u2029', '\u202f', '\u205f', '\u3000']

/-- The ranges of code points in `isBlank` hold these characters and no others. -/
theorem isBlank_iff {c : Char} : isBlank c = true ↔ c ∈ whiteSpace := by
  -- a character is one of them if its code point is
  simp only [isBlank, whiteSpace, List.mem_cons, List.not_mem_nil, or_false, ← Char.toNat_inj,
    Char.reduceToNat, Bool.or_eq_true, Bool.and_eq_true, decide_eq_true_eq, beq_iff_eq]
  omega

theorem isBlank_eq_false_iff {c : Char} : isBlank c = false ↔ c ∉ whiteSpace := by
  rw [← isBlank_iff, Bool.not_eq_true]

/-- The string is nothing but white space. -/
def IsWhite (s : String) : Prop := ∀ c ∈ s.toList, c ∈ whiteSpace

instance (s : String) : Decidable (IsWhite s) :=
  List.decidableBAll (· ∈ whiteSpace) s.toList

/-- A string without the white space around it: it stands between white space and neither begins
nor ends with any. -/
structure IsBody (body s : String) : Prop where
  between : ∃ left right, s = left ++ body ++ right ∧ IsWhite left ∧ IsWhite right
  begins : ∀ c, body.toList.head? = some c → c ∉ whiteSpace
  ends : ∀ c, body.toList.getLast? = some c → c ∉ whiteSpace

variable {body s left right : String}

theorem isWhite_iff : IsWhite s ↔ ∀ c ∈ s.toList, isBlank c = true := by
  simp only [IsWhite, isBlank_iff]

theorem isWhite_ofList {cs : List Char} :
    IsWhite (String.ofList cs) ↔ ∀ c ∈ cs, isBlank c = true := by
  rw [isWhite_iff, String.toList_ofList]

theorem IsWhite.append (hleft : IsWhite left) (hright : IsWhite right) :
    IsWhite (left ++ right) := by
  intro c hc
  rw [String.toList_append, List.mem_append] at hc
  exact hc.elim (hleft c) (hright c)

theorem isBody_iff_isCore : IsBody body s ↔ IsCore body.toList s.toList := by
  constructor
  · intro h
    rcases h.between with ⟨left, right, rfl, hleft, hright⟩
    exact {
      between := ⟨left.toList, right.toList, by simp only [String.toList_append],
        isWhite_iff.1 hleft, isWhite_iff.1 hright⟩
      head := fun c hc => isBlank_eq_false_iff.2 (h.begins c hc)
      last := fun c hc => isBlank_eq_false_iff.2 (h.ends c hc) }
  · intro h
    rcases h.between with ⟨left, right, hs, hleft, hright⟩
    -- what stands around a core makes strings as well
    have hstring : s = String.ofList left ++ body ++ String.ofList right := by
      rw [← String.toList_inj, hs]
      simp only [String.toList_append, String.toList_ofList]
    exact {
      between := ⟨_, _, hstring, isWhite_ofList.2 hleft, isWhite_ofList.2 hright⟩
      begins := fun c hc => isBlank_eq_false_iff.1 (h.head c hc)
      ends := fun c hc => isBlank_eq_false_iff.1 (h.last c hc) }

/-- Trimming leaves the one body of a string. -/
theorem isBody_iff : IsBody body s ↔ trimmed s = body := by
  rw [isBody_iff_isCore, isCore_iff, trimmed, ← String.toList_inj, String.toList_ofList]

/-- White space around a string is white space around its body. -/
theorem IsBody.padded (h : IsBody body s) (hleft : IsWhite left) (hright : IsWhite right) :
    IsBody body (left ++ s ++ right) where
  between := by
    rcases h.between with ⟨left', right', rfl, hleft', hright'⟩
    refine ⟨left ++ left', right' ++ right, ?_, hleft.append hleft', hright'.append hright⟩
    simp only [String.append_assoc]
  begins := h.begins
  ends := h.ends

theorem trimmed_padded (hleft : IsWhite left) (hright : IsWhite right) :
    trimmed (left ++ s ++ right) = trimmed s := by
  -- both strings have this body, and a string has only one
  have hbody : IsBody (trimmed s) s := isBody_iff.2 rfl
  exact isBody_iff.1 (hbody.padded hleft hright)

theorem trimmed_eq_empty_iff : trimmed s = "" ↔ IsWhite s := by
  rw [isWhite_iff, ← trim_eq_nil_iff, trimmed, ← String.toList_inj, String.toList_ofList,
    String.toList_empty]

end TaskBoard.Text
