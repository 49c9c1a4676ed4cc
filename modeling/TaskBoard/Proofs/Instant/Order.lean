import TaskBoard.Instant.Basic

/-!
# Earlier and later instants

`notAfter` is a linear order, `latest` its maximum, and rounding down to the microsecond is done
once and for all.

* `notAfter_refl`, `notAfter_trans`, `notAfter_antisymm`, `notAfter_total`: the order;
* `notAfter_latest`: the later of two instants is not before the other;
* `toMicros_eq_iff`: the instants that rounding leaves as they are.
-/

namespace TaskBoard.Instant

variable {t u v : Instant}

theorem notAfter_iff : t.notAfter u = true ↔
    t.seconds < u.seconds ∨ t.seconds = u.seconds ∧ t.nanos ≤ u.nanos := by
  simp [notAfter]

theorem eq_iff : t = u ↔ t.seconds = u.seconds ∧ t.nanos = u.nanos := by
  constructor
  · rintro rfl
    exact ⟨rfl, rfl⟩
  · rintro ⟨hseconds, hnanos⟩
    cases t
    cases u
    cases hseconds
    cases hnanos
    rfl

theorem notAfter_refl (t : Instant) : t.notAfter t = true :=
  notAfter_iff.2 (Or.inr ⟨rfl, Nat.le_refl _⟩)

theorem notAfter_trans (h : t.notAfter u = true) (h' : u.notAfter v = true) :
    t.notAfter v = true := by
  rw [notAfter_iff] at h h' ⊢
  omega

theorem notAfter_antisymm (h : t.notAfter u = true) (h' : u.notAfter t = true) : t = u := by
  rw [notAfter_iff] at h h'
  rw [eq_iff]
  omega

theorem notAfter_total (t u : Instant) : t.notAfter u = true ∨ u.notAfter t = true := by
  rw [notAfter_iff, notAfter_iff]
  omega

/-! ## The later of two -/

theorem latest_cases (t u : Instant) : t.latest u = t ∨ t.latest u = u := by
  unfold latest
  split
  · exact Or.inr rfl
  · exact Or.inl rfl

/-- The later of two instants is not before the other. -/
theorem notAfter_latest (t u : Instant) : u.notAfter (t.latest u) = true := by
  unfold latest
  split
  · exact notAfter_refl u
  · rename_i h
    exact (notAfter_total t u).resolve_left h

/-! ## Microseconds -/

/-- Nothing is left below the microsecond. -/
def InMicros (t : Instant) : Prop := t.nanos % 1000 = 0

theorem inMicros_toMicros (t : Instant) : t.toMicros.InMicros := by
  simp only [InMicros, toMicros]
  omega

/-- The instants that rounding leaves as they are. -/
theorem toMicros_eq_iff : t.toMicros = t ↔ t.InMicros := by
  have hle : t.nanos % 1000 ≤ t.nanos := Nat.mod_le _ _
  have hparts : t.toMicros = t ↔ t.nanos - t.nanos % 1000 = t.nanos := by
    rw [eq_iff]
    exact and_iff_right rfl
  rw [hparts, InMicros]
  omega

theorem InMicros.latest (ht : t.InMicros) (hu : u.InMicros) : (t.latest u).InMicros := by
  rcases latest_cases t u with h | h
  · rwa [h]
  · rwa [h]

end TaskBoard.Instant
