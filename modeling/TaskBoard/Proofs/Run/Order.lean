/-!
# What comes before what in a trace

A trace tells in which order events of two kinds have come about, and keeps telling it while it
grows.

* `Precedes.now`: what has happened comes before what has not;
* `not_precedes_snoc`: what has not come first cannot do so any more.
-/

namespace TaskBoard.Run

variable {ε : Type}

/-- An event of the kind `P` has been seen. -/
def Happened (P : ε → Prop) (trace : List ε) : Prop := ∃ e ∈ trace, P e

/-- An event of the kind `P` has been seen before any of the kind `Q`. -/
def Precedes (P Q : ε → Prop) (trace : List ε) : Prop :=
  ∃ before after, trace = before ++ after ∧ Happened P before ∧ ¬ Happened Q before

variable {P Q : ε → Prop} {trace : List ε} {e : ε}

theorem not_happened_nil : ¬ Happened P [] := by
  rintro ⟨e, he, -⟩
  cases he

theorem happened_snoc : Happened P (trace ++ [e]) ↔ Happened P trace ∨ P e := by
  unfold Happened
  constructor
  · rintro ⟨f, hf, hP⟩
    rcases List.mem_append.1 hf with hf | hf
    · exact Or.inl ⟨f, hf, hP⟩
    · rw [List.mem_singleton.1 hf] at hP
      exact Or.inr hP
  · rintro (⟨f, hf, hP⟩ | hP)
    · exact ⟨f, List.mem_append_left _ hf, hP⟩
    · exact ⟨e, by simp, hP⟩

theorem not_happened_snoc (h : ¬ Happened P trace) (he : ¬ P e) : ¬ Happened P (trace ++ [e]) := by
  intro hsnoc
  rcases happened_snoc.1 hsnoc with hold | hnew
  · exact h hold
  · exact he hnew

theorem Happened.snoc (h : Happened P trace) : Happened P (trace ++ [e]) :=
  happened_snoc.2 (Or.inl h)

theorem Precedes.snoc (h : Precedes P Q trace) : Precedes P Q (trace ++ [e]) := by
  obtain ⟨before, after, rfl, hP, hQ⟩ := h
  exact ⟨before, after ++ [e], by simp, hP, hQ⟩

/-- What has happened already comes before what has not. -/
theorem Precedes.now (hP : Happened P trace) (hQ : ¬ Happened Q trace) :
    Precedes P Q (trace ++ [e]) :=
  ⟨trace, [e], rfl, hP, hQ⟩

theorem Precedes.happened (h : Precedes P Q trace) : Happened P trace := by
  obtain ⟨before, after, rfl, ⟨f, hf, hP⟩, -⟩ := h
  exact ⟨f, List.mem_append_left _ hf, hP⟩

/-- What has not come first cannot do so any more when the other thing has happened. -/
theorem not_precedes_snoc (h : ¬ Precedes P Q trace) (hQ : Happened Q (trace ++ [e])) :
    ¬ Precedes P Q (trace ++ [e]) := by
  rintro ⟨before, after, htrace, hP, hnone⟩
  rcases List.eq_nil_or_concat after with rfl | ⟨after, f, rfl⟩
  · rw [List.append_nil] at htrace
    rw [htrace] at hQ
    exact hnone hQ
  · rw [List.concat_eq_append, ← List.append_assoc] at htrace
    exact h ⟨before, after, List.append_inj_left' htrace rfl, hP, hnone⟩

end TaskBoard.Run
