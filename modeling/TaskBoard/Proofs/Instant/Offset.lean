import TaskBoard.Proofs.Instant.RoundTrip

/-!
# Instants told by local clocks

An instant may be written by clocks that are some whole minutes ahead of UTC or behind it, with any
number of digits after the second. `TextAt` says which texts these are. Each of them is read as the
instant, also where the local day falls into another month or year than that of UTC.

* `localReading_in_range`: a local time is in range if its year is;
* `scanFraction_fraction`, `scanOffset_zone`: the parts that depend on the writer;
* `read_textAt`: reading a text of the instant gives the instant.
-/

namespace TaskBoard.Instant

open Text

/-! ## Texts of an instant -/

/-- A fraction of a second in nanoseconds, rounded down: nothing, or a point and some digits. -/
inductive Fraction : Nat → List Char → Prop where
  | none : Fraction 0 []
  | digits {ds : List Char} {n : Nat} (hne : ds ≠ []) (hread : readDigits 0 ds = some n) :
      Fraction (n * 10 ^ 9 / 10 ^ ds.length) ('.' :: ds)

/-- The hours and minutes of a number of minutes. -/
def clockText (minutes : Nat) : List Char :=
  padded 2 (minutes / 60) ++ ':' :: padded 2 (minutes % 60)

/-- The minutes that local clocks are ahead of UTC. -/
inductive Zone : Int → List Char → Prop where
  | utc {c : Char} (hc : c = 'Z' ∨ c = 'z') : Zone 0 [c]
  | ahead (minutes : Nat) : Zone minutes ('+' :: clockText minutes)
  | behind (minutes : Nat) : Zone (-minutes) ('-' :: clockText minutes)

/-- A text that tells an instant by clocks which are less than a day ahead of UTC or behind it, and
show a year that there is. -/
inductive TextAt (t : Instant) (minutes : Int) : List Char → Prop where
  | mk {mark : Char} {fraction zone : List Char} (hday : minutes.natAbs < 24 * 60)
      (hyear : -262143 ≤ (t.localReading (minutes * 60)).date.year
        ∧ (t.localReading (minutes * 60)).date.year ≤ 262142)
      (hmark : mark = 'T' ∨ mark = 't' ∨ mark = ' ')
      (hfraction : Fraction (t.localReading (minutes * 60)).nanos fraction)
      (hzone : Zone minutes zone) :
      TextAt t minutes
        (yearText (t.localReading (minutes * 60)).date.year
          ++ '-' :: padded 2 (t.localReading (minutes * 60)).date.month
          ++ '-' :: padded 2 (t.localReading (minutes * 60)).date.day
          ++ mark :: padded 2 (t.localReading (minutes * 60)).hour
          ++ ':' :: padded 2 (t.localReading (minutes * 60)).minute
          ++ ':' :: padded 2 (t.localReading (minutes * 60)).second
          ++ fraction ++ zone)

/-! ## The range -/

/-- A local time that is less than a day off is in range if its year is: the days before the first
and after the last have other years. -/
theorem localReading_in_range (t : Instant) {offset : Int} (hoffset : offset.natAbs < 86400)
    (hlow : -262143 ≤ (t.localReading offset).date.year)
    (hhigh : (t.localReading offset).date.year ≤ 262142) :
    firstSecond ≤ t.seconds + offset ∧ t.seconds + offset ≤ lastSecond := by
  have hfirst := t.first_le
  have hlast := t.le_last
  unfold firstSecond at hfirst ⊢
  unfold lastSecond at hlast ⊢
  constructor
  · refine Int.not_lt.1 fun hbefore => ?_
    have hdate : (t.localReading offset).date = Date.ofDayNumber (-96465293) := by
      rw [localReading, show (t.seconds + offset) / 86400 = -96465293 by omega]
    rw [hdate] at hlow
    exact absurd hlow (by decide)
  · refine Int.not_lt.1 fun hafter => ?_
    have hdate : (t.localReading offset).date = Date.ofDayNumber 95026237 := by
      rw [localReading, show (t.seconds + offset) / 86400 = 95026237 by omega]
    rw [hdate] at hhigh
    exact absurd hhigh (by decide)

/-! ## Fraction and zone -/

variable {nanos : Nat} {minutes : Int} {fraction zone : List Char}

/-- What comes after a fraction is neither a digit nor blank nor a point. -/
theorem Zone.head (h : Zone minutes zone) : ∃ c rest, zone = c :: rest ∧ isDigit c = false
    ∧ isBlank c = false ∧ c ≠ '.' := by
  cases h with
  | utc hc => rcases hc with rfl | rfl <;> exact ⟨_, _, rfl, by decide, by decide, by decide⟩
  | ahead minutes => exact ⟨_, _, rfl, by decide, by decide, by decide⟩
  | behind minutes => exact ⟨_, _, rfl, by decide, by decide, by decide⟩

theorem scanFraction_fraction (h : Fraction nanos fraction) (hzone : Zone minutes zone) :
    scanFraction (fraction ++ zone) = .ok (nanos, zone) := by
  obtain ⟨c, rest, rfl, hdigit, -, hpoint⟩ := hzone.head
  cases h with
  | none =>
    rw [List.nil_append, scanFraction]
    intro cs hcs
    exact hpoint (List.cons.inj hcs).1
  | digits hne hread =>
    refine scanFraction_digits hne hread fun d hd => ?_
    rw [← Option.some.inj hd]
    exact hdigit

/-- Two digits. -/
theorem padded_two {n : Nat} (h : n < 100) :
    padded 2 n = [digitChar (n / 10), digitChar (n % 10)] := by
  have hall : ∀ n < 100, padded 2 n = [digitChar (n / 10), digitChar (n % 10)] := by
    decide +kernel
  exact hall n h

theorem scanPair_padded {n : Nat} (h : n < 100) (rest : List Char) :
    scanPair (padded 2 n ++ rest) = .ok ((n / 10, n % 10), rest) := by
  have htens : n / 10 < 10 := by omega
  have hones : n % 10 < 10 := by omega
  simp only [padded_two h, List.cons_append, List.nil_append, scanPair, digitValue?_digitChar htens,
    digitValue?_digitChar hones]

/-- Hours and minutes are scanned as seconds. -/
theorem scanHoursMinutes_clockText {minutes : Nat} (h : minutes < 24 * 60) :
    scanHoursMinutes (clockText minutes) = .ok (minutes * 60, []) := by
  have hhour : minutes / 60 < 100 := by omega
  have hminute : minutes % 60 < 100 := by omega
  have hdrop : List.dropWhile (fun c => decide (c = ':') || isBlank c)
      (':' :: padded 2 (minutes % 60)) = padded 2 (minutes % 60) := by
    have hblank : isBlank (digitChar (minutes % 60 / 10)) = false :=
      isBlank_of_isDigit (isDigit_digitChar _)
    have hcolon : digitChar (minutes % 60 / 10) ≠ ':' := by
      intro heq
      have hdigit := isDigit_digitChar (minutes % 60 / 10)
      rw [heq] at hdigit
      exact absurd hdigit (by decide)
    simp [padded_two hminute, hblank, hcolon]
  have hpair := scanPair_padded hminute []
  rw [List.append_nil] at hpair
  have hsix : minutes % 60 / 10 < 6 := by omega
  have hsum : ((minutes / 60 / 10 * 10 + minutes / 60 % 10) * 60 + minutes % 60 / 10 * 10
      + minutes % 60 % 10) * 60 = minutes * 60 := by omega
  simp only [scanHoursMinutes, clockText, bind, Except.bind,
    scanPair_padded hhour, hdrop, hpair, if_pos hsix, hsum]

theorem scanOffset_zone (h : Zone minutes zone) (hday : minutes.natAbs < 24 * 60) :
    scanOffset zone = .ok (minutes * 60, []) := by
  cases h with
  | utc hc => rcases hc with rfl | rfl <;> rfl
  | ahead minutes =>
    have hscan := scanHoursMinutes_clockText (by omega : minutes < 24 * 60)
    have hfirst : scanOffset ('+' :: clockText minutes)
        = (scanHoursMinutes (clockText minutes)).map fun p => ((p.1 : Int), p.2) := rfl
    rw [hfirst, hscan]
    simp [Except.map]
  | behind minutes =>
    have hscan := scanHoursMinutes_clockText (by omega : minutes < 24 * 60)
    have hfirst : scanOffset ('-' :: clockText minutes)
        = (scanHoursMinutes (clockText minutes)).map fun p => (-(p.1 : Int), p.2) := rfl
    have hneg : -((minutes * 60 : Nat) : Int) = -(minutes : Int) * 60 := by omega
    rw [hfirst, hscan]
    exact congrArg (fun n => Except.ok (n, [])) hneg

/-! ## Reading -/

/-- Every text of an instant is read as this instant. -/
theorem read_textAt {t : Instant} {cs : List Char} (h : TextAt t minutes cs) :
    read cs = .ok t := by
  obtain ⟨hday, hyear, hmark, hfraction, hzone⟩ := h
  obtain ⟨hvalid, hhour, hminute, hsecond, -⟩ := t.localReading_bounds (minutes * 60)
  have htrim : ∀ {zone}, Zone minutes zone → trimLeft zone = zone := by
    intro zone hzone
    obtain ⟨c, rest, rfl, -, hblank, -⟩ := hzone.head
    simp [trimLeft, hblank]
  have hscan := scan_parts ⟨by omega, by omega⟩ hvalid hhour hminute hsecond hmark
    (scanFraction_fraction hfraction hzone)
    ((congrArg scanOffset (htrim hzone)).trans (scanOffset_zone hzone hday))
  have hoffset : (minutes * 60).natAbs < 86400 := by omega
  obtain ⟨hfirst, hlast⟩ := t.localReading_in_range hoffset hyear.1 hyear.2
  rw [read, hscan]
  exact t.toInstant_localReading (by omega) hoffset hfirst hlast

end TaskBoard.Instant
