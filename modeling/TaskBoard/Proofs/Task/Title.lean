import TaskBoard.Proofs.Text.Trim
import TaskBoard.Task.Basic

/-!
# Titles

A title is taken without the white space around it, and refused if there is nothing else. What is
taken is the one body of the raw title, so it is taken as it is from then on, and how much white
space stood around it does not matter.

* `normalizeTitle_eq_error_iff`, `normalizeTitle_eq_ok_iff`: which titles are refused, and what the
  others become;
* `normalizeTitle_of_eq_ok`, `normalizeTitle_padded`: what a second pass and more white space do;
* `normalizeTitle_exact`: all of it together.
-/

namespace TaskBoard

/-! ## Refused or trimmed -/

/-- A title is refused if it is nothing but blanks. -/
theorem normalizeTitle_of_blank {raw : String} (h : ∀ c ∈ raw.toList, Text.isBlank c = true) :
    normalizeTitle raw = .error (.invalidInput "title must not be empty") := by
  have hempty : Text.trimmed raw = "" := Text.trimmed_eq_empty_iff.2 (Text.isWhite_iff.2 h)
  rw [normalizeTitle, hempty]
  rfl

/-- A title with something else than blanks is taken without the blanks around it. -/
theorem normalizeTitle_of_not_blank {raw : String}
    (h : ¬ ∀ c ∈ raw.toList, Text.isBlank c = true) :
    normalizeTitle raw = .ok (Text.trimmed raw) := by
  have hne : Text.trimmed raw ≠ "" := fun hempty =>
    h (Text.isWhite_iff.1 (Text.trimmed_eq_empty_iff.1 hempty))
  have hempty : (Text.trimmed raw).isEmpty = false := String.isEmpty_eq_false_iff.2 hne
  rw [normalizeTitle]
  simp only [hempty, Bool.false_eq_true, if_false]

/-! ## The body of a raw title -/

variable {raw title left right : String} {e : TaskError}

theorem normalizeTitle_eq_error_iff : normalizeTitle raw = .error e
    ↔ Text.IsWhite raw ∧ e = .invalidInput "title must not be empty" := by
  rw [Text.isWhite_iff]
  by_cases hblank : ∀ c ∈ raw.toList, Text.isBlank c = true
  · rw [normalizeTitle_of_blank hblank, Except.error.injEq]
    exact ⟨fun h => ⟨hblank, h.symm⟩, fun h => h.2.symm⟩
  · rw [normalizeTitle_of_not_blank hblank]
    exact ⟨fun h => (nomatch h), fun h => absurd h.1 hblank⟩

theorem normalizeTitle_eq_ok_iff : normalizeTitle raw = .ok title
    ↔ ¬ Text.IsWhite raw ∧ Text.IsBody title raw := by
  rw [Text.isWhite_iff, Text.isBody_iff]
  by_cases hblank : ∀ c ∈ raw.toList, Text.isBlank c = true
  · rw [normalizeTitle_of_blank hblank]
    exact ⟨fun h => (nomatch h), fun h => absurd hblank h.1⟩
  · rw [normalizeTitle_of_not_blank hblank, Except.ok.injEq]
    exact ⟨fun h => ⟨hblank, h⟩, fun h => h.2⟩

/-- A title that is not refused is trimmed and says something. -/
theorem normalizeTitle_eq_ok (h : normalizeTitle raw = .ok title) :
    title ≠ "" ∧ Text.trimmed title = title := by
  obtain ⟨hwhite, hbody⟩ := normalizeTitle_eq_ok_iff.1 h
  obtain rfl := Text.isBody_iff.1 hbody
  exact ⟨fun hempty => hwhite (Text.trimmed_eq_empty_iff.1 hempty), Text.trimmed_trimmed raw⟩

/-- A title that has been taken once is taken as it is. -/
theorem normalizeTitle_of_eq_ok (h : normalizeTitle raw = .ok title) :
    normalizeTitle title = .ok title := by
  obtain ⟨hne, htrimmed⟩ := normalizeTitle_eq_ok h
  have hwhite : ¬ Text.IsWhite title := by
    rwa [← Text.trimmed_eq_empty_iff, htrimmed]
  exact normalizeTitle_eq_ok_iff.2 ⟨hwhite, Text.isBody_iff.2 htrimmed⟩

theorem normalizeTitle_padded (hleft : Text.IsWhite left) (hright : Text.IsWhite right) :
    normalizeTitle (left ++ raw ++ right) = normalizeTitle raw := by
  rw [normalizeTitle, Text.trimmed_padded hleft hright, normalizeTitle]

/-- A raw title is refused exactly if it is nothing but white space. Any other one becomes its one
body, which a second pass leaves alone. And white space put around a raw title changes nothing. -/
theorem normalizeTitle_exact (raw : String) :
    (∀ e, normalizeTitle raw = .error e
      ↔ Text.IsWhite raw ∧ e = .invalidInput "title must not be empty")
    ∧ (¬ Text.IsWhite raw → ∃ title, normalizeTitle raw = .ok title
        ∧ (∀ body, Text.IsBody body raw ↔ body = title) ∧ normalizeTitle title = .ok title)
    ∧ ∀ left right, Text.IsWhite left → Text.IsWhite right →
        normalizeTitle (left ++ raw ++ right) = normalizeTitle raw := by
  refine ⟨fun e => normalizeTitle_eq_error_iff, ?_, fun left right => normalizeTitle_padded⟩
  intro hwhite
  have htaken : normalizeTitle raw = .ok (Text.trimmed raw) :=
    normalizeTitle_eq_ok_iff.2 ⟨hwhite, Text.isBody_iff.2 rfl⟩
  refine ⟨Text.trimmed raw, htaken, ?_, normalizeTitle_of_eq_ok htaken⟩
  intro body
  rw [Text.isBody_iff, eq_comm]

/-- White space of one, two and three bytes around a title, and some inside it. -/
theorem normalizeTitle_exact_of_plan :
    let raw := "\u2003plan\u00a0sprint \u3000"
    ¬ Text.IsWhite raw ∧ normalizeTitle raw = .ok "plan\u00a0sprint"
      ∧ Text.IsWhite "\t\u2028" ∧ Text.IsWhite "\u0085\n"
      ∧ normalizeTitle ("\t\u2028" ++ raw ++ "\u0085\n") = .ok "plan\u00a0sprint" := by
  intro raw
  have hbody : Text.IsBody "plan\u00a0sprint" raw := {
    between := ⟨"\u2003", " \u3000", rfl, by decide, by decide⟩
    begins := by
      intro c hc
      obtain rfl : 'p' = c := Option.some.inj hc
      decide
    ends := by
      intro c hc
      obtain rfl : 't' = c := Option.some.inj hc
      decide }
  have hwhite : ¬ Text.IsWhite raw := by decide
  have hleft : Text.IsWhite "\t\u2028" := by decide
  have hright : Text.IsWhite "\u0085\n" := by decide
  obtain ⟨-, htaken, hpadded⟩ := normalizeTitle_exact raw
  -- the one body of the raw title is what it becomes
  obtain ⟨title, htitle, hunique, -⟩ := htaken hwhite
  obtain rfl := (hunique _).1 hbody
  exact ⟨hwhite, htitle, hleft, hright, (hpadded _ _ hleft hright).trans htitle⟩

end TaskBoard
