import TaskBoard.Instant.Read
import TaskBoard.Proofs.Instant.Calendar
import TaskBoard.Proofs.Text.Numeral

/-!
# The text of an instant reads back

Every instant is read from its text: years before 0 and after 9999, fractions of 0, 3, 6 or 9
digits and leap seconds included.

* `scan_parts`: what the scanner makes of a text, part by part;
* `toInstant_localReading`: what the clocks of any place tell is the instant;
* `read_print`: reading the text of an instant gives the instant.
-/

namespace TaskBoard.Instant

open Text

/-! ## One part of the text after the other -/

/-- Digits are scanned up to a character that is none, or up to the greatest number of them. -/
theorem scanDigits_append {most : Nat} {ds rest : List Char} (hne : ds ≠ [])
    (hds : ∀ c ∈ ds, isDigit c = true) (hlen : ds.length ≤ most)
    (hrest : ds.length = most ∨ ∀ c, rest.head? = some c → isDigit c = false) :
    scanDigits most (ds ++ rest) = .ok ((readDigits 0 ds).getD 0, rest) := by
  have htail : (rest.take (most - ds.length)).takeWhile isDigit = [] := by
    rcases hrest with hfull | hend
    · simp [hfull]
    · cases rest with
      | nil => simp
      | cons c rest =>
        have hc : isDigit c = false := hend c rfl
        cases most - ds.length with
        | zero => simp
        | succ k => simp [hc]
  have htake : ((ds ++ rest).take most).takeWhile isDigit = ds := by
    rw [List.take_append, List.take_of_length_le hlen, List.takeWhile_append_of_pos hds, htail,
      List.append_nil]
  cases ds with
  | nil => exact absurd rfl hne
  | cons d ds =>
    have hd : isDigit d = true := hds d (by simp)
    rw [List.cons_append] at htake ⊢
    simp only [scanDigits, hd, if_true, htake]
    simp

theorem head_padded_append (width n : Nat) (rest : List Char) :
    ∀ c, (padded width n ++ rest).head? = some c → isDigit c = true := by
  intro c hc
  have hmem : (padded width n).head? = some c := by
    cases hpadded : padded width n with
    | nil => exact absurd hpadded (padded_ne_nil width n)
    | cons d ds => simpa [hpadded] using hc
  exact isDigit_of_mem_padded (List.mem_of_mem_head? hmem)

/-- A number padded to two digits is scanned, whatever follows. -/
theorem scanNumber_padded {low n : Nat} {rest : List Char} (high : Nat) (hlow : low ≤ n)
    (hhigh : n ≤ high) (hn : n < 100) :
    scanNumber low high (padded 2 n ++ rest) = .ok (n, rest) := by
  have hlen : (padded 2 n).length = 2 := length_padded (by omega) (by omega)
  have hscan : scanDigits 2 (padded 2 n ++ rest) = .ok (n, rest) := by
    rw [scanDigits_append (padded_ne_nil 2 n) (fun c hc => isDigit_of_mem_padded hc)
      (by omega) (Or.inl hlen), readDigits_padded]
    rfl
  simp only [scanNumber, trimLeft_of_isDigit (head_padded_append 2 n rest), hscan]
  simp [bind, Except.bind, hlow, hhigh]

/-- A year is scanned up to the dash after it. -/
theorem scanYear_yearText {y : Int} {rest : List Char} (hlow : -300000 ≤ y) (hhigh : y ≤ 300000) :
    scanYear (yearText y ++ '-' :: rest) = .ok (y, '-' :: rest) := by
  have hend : ∀ c, ('-' :: rest).head? = some c → isDigit c = false := by
    intro c hc
    rw [← Option.some.inj hc]
    decide
  -- the digits of a signed year end at the dash, however many they are
  have hsigned : ∀ n : Nat,
      scanDigits (padded 4 n ++ '-' :: rest).length (padded 4 n ++ '-' :: rest)
        = .ok (n, '-' :: rest) := by
    intro n
    rw [scanDigits_append (padded_ne_nil 4 n) (fun c hc => isDigit_of_mem_padded hc)
      (by rw [List.length_append]; omega) (Or.inr hend), readDigits_padded]
    rfl
  unfold yearText
  by_cases hneg : y < 0
  · have habs : -((y.natAbs : Nat) : Int) = y := by omega
    have htrim : trimLeft ('-' :: (padded 4 y.natAbs ++ '-' :: rest))
        = '-' :: (padded 4 y.natAbs ++ '-' :: rest) := by
      simp [trimLeft, show isBlank '-' = false by decide]
    rw [if_pos hneg, List.cons_append]
    simp only [scanYear, htrim, hsigned]
    simp only [bind, Except.bind, habs]
    rw [if_pos (by omega)]
  · rw [if_neg hneg]
    have habs : ((y.natAbs : Nat) : Int) = y := by omega
    by_cases hfour : y ≤ 9999
    · have hscan : scanDigits 4 (padded 4 y.natAbs ++ '-' :: rest)
          = .ok (y.natAbs, '-' :: rest) := by
        have hlen : (padded 4 y.natAbs).length = 4 := length_padded (by omega) (by omega)
        rw [scanDigits_append (padded_ne_nil 4 _) (fun c hc => isDigit_of_mem_padded hc)
          (by omega) (Or.inl hlen), readDigits_padded]
        rfl
      have hhead := head_padded_append 4 y.natAbs ('-' :: rest)
      rw [if_pos hfour]
      simp only [scanYear, trimLeft_of_isDigit hhead]
      split
      · rename_i cs heq
        exact absurd (hhead '-' (by rw [heq]; rfl)) (by decide)
      · rename_i cs heq
        exact absurd (hhead '+' (by rw [heq]; rfl)) (by decide)
      · simp only [hscan, bind, Except.bind, habs]
        rw [if_pos (by omega)]
    · have htrim : trimLeft ('+' :: (padded 4 y.natAbs ++ '-' :: rest))
          = '+' :: (padded 4 y.natAbs ++ '-' :: rest) := by
        simp [trimLeft, show isBlank '+' = false by decide]
      rw [if_neg hfour, List.cons_append]
      simp only [scanYear, htrim, hsigned]
      simp only [bind, Except.bind, habs]
      rw [if_pos (by omega)]

/-- A fraction is scanned as nanoseconds, however many digits it has; those after the ninth are
dropped. -/
theorem scanFraction_digits {ds rest : List Char} {n : Nat} (hne : ds ≠ [])
    (hread : readDigits 0 ds = some n) (hrest : ∀ c, rest.head? = some c → isDigit c = false) :
    scanFraction ('.' :: (ds ++ rest)) = .ok (n * 10 ^ 9 / 10 ^ ds.length, rest) := by
  have hds : ∀ c ∈ ds, isDigit c = true := isDigit_of_readDigits hread
  have hdrop : rest.dropWhile isDigit = rest := by
    cases rest with
    | nil => rfl
    | cons c rest => simp [hrest c rfl]
  by_cases hlen : ds.length ≤ 9
  · have hscan : scanDigits 9 (ds ++ rest) = .ok (n, rest) := by
      rw [scanDigits_append hne hds hlen (Or.inr hrest), hread]
      rfl
    have hpow : 10 ^ 9 = 10 ^ (9 - ds.length) * 10 ^ ds.length := by
      rw [← Nat.pow_add, Nat.sub_add_cancel hlen]
    have hscale : n * 10 ^ 9 / 10 ^ ds.length = n * Nat.pow 10 (9 - ds.length) := by
      rw [hpow, ← Nat.mul_assoc, Nat.mul_div_cancel _ (Nat.pow_pos (by decide))]
      rfl
    simp only [scanFraction, hscan, bind, Except.bind, hdrop, List.length_append,
      Nat.add_sub_cancel, hscale]
  · -- nine digits are a number of nanoseconds, the others change nothing about it
    have hsplit : ds = ds.take 9 ++ ds.drop 9 := (List.take_append_drop 9 ds).symm
    have htake : (ds.take 9).length = 9 := by
      rw [List.length_take]
      omega
    obtain ⟨m, hm, hn⟩ := readDigits_append (hsplit ▸ hread)
    have hscan : scanDigits 9 (ds ++ rest) = .ok (m, ds.drop 9 ++ rest) := by
      have hne' : ds.take 9 ≠ [] := fun hnil => by simp [hnil] at htake
      have hscan' : scanDigits 9 (ds.take 9 ++ (ds.drop 9 ++ rest)) = _ :=
        scanDigits_append hne' (fun c hc => hds c (List.mem_of_mem_take hc)) (Nat.le_of_eq htake)
          (Or.inl htake)
      rw [← List.append_assoc, ← hsplit, hm] at hscan'
      exact hscan'
    have hafter : (ds.drop 9 ++ rest).dropWhile isDigit = rest := by
      rw [List.dropWhile_append_of_pos fun c hc => hds c (List.mem_of_mem_drop hc), hdrop]
    have hcount : (ds ++ rest).length - (ds.drop 9 ++ rest).length = 9 := by
      simp only [List.length_append, List.length_drop]
      omega
    have hpow : 10 ^ ds.length = 10 ^ (ds.drop 9).length * 10 ^ 9 := by
      rw [← Nat.pow_add, List.length_drop, Nat.sub_add_cancel (by omega)]
    have hscale : n * 10 ^ 9 / 10 ^ ds.length = m := by
      rw [hpow, Nat.mul_div_mul_right _ _ (by decide), div_of_readDigits hn]
    simp only [scanFraction, hscan, bind, Except.bind, hafter, hcount, hscale]
    simp

theorem scanFraction_fractionText {nanos : Nat} (hnanos : nanos < 1000000000) :
    scanFraction (fractionText nanos ++ ['Z']) = .ok (nanos, ['Z']) := by
  have hend : ∀ c, ['Z'].head? = some c → isDigit c = false := by
    intro c hc
    rw [← Option.some.inj hc]
    decide
  -- the text is as long as it has to be for this number of nanoseconds
  have hpadded : ∀ {width n : Nat}, 1 ≤ width → n < 10 ^ width →
      n * 10 ^ 9 / 10 ^ width = nanos →
      scanFraction ('.' :: (padded width n ++ ['Z'])) = .ok (nanos, ['Z']) := by
    intro width n hwidth hn hexact
    rw [scanFraction_digits (padded_ne_nil width n) (readDigits_padded width n) hend,
      length_padded hwidth hn, hexact]
  unfold fractionText
  by_cases hzero : nanos = 0
  · rw [if_pos hzero, hzero]
    rfl
  · rw [if_neg hzero]
    by_cases hmillis : nanos % 1000000 = 0
    · rw [if_pos hmillis]
      exact hpadded (by omega) (by omega) (by omega)
    · rw [if_neg hmillis]
      by_cases hmicros : nanos % 1000 = 0
      · rw [if_pos hmicros]
        exact hpadded (by omega) (by omega) (by omega)
      · rw [if_neg hmicros]
        exact hpadded (by omega) (by omega) (by omega)

theorem scanMark_cons {c : Char} {cs : List Char} (hc : isBlank c = false) :
    scanMark c (c :: cs) = .ok cs := by
  simp [scanMark, trimLeft, hc]

/-! ## The whole text -/

/-- The scanner finds every part of a text. -/
theorem scan_parts {d : Date} {hour minute second nanos : Nat} {offset : Int} {mark : Char}
    {fraction zone : List Char} (hyear : -300000 ≤ d.year ∧ d.year ≤ 300000)
    (hvalid : d.isValid = true) (hhour : hour ≤ 23) (hminute : minute ≤ 59) (hsecond : second ≤ 60)
    (hmark : mark = 'T' ∨ mark = 't' ∨ mark = ' ')
    (hfraction : scanFraction (fraction ++ zone) = .ok (nanos, zone))
    (hzone : scanOffset (trimLeft zone) = .ok (offset, [])) :
    scan (yearText d.year ++ '-' :: padded 2 d.month ++ '-' :: padded 2 d.day
        ++ mark :: padded 2 hour ++ ':' :: padded 2 minute ++ ':' :: padded 2 second
        ++ fraction ++ zone)
      = .ok ⟨d, hour, minute, second, nanos, offset⟩ := by
  simp only [Date.isValid, Bool.and_eq_true, decide_eq_true_eq] at hvalid
  obtain ⟨⟨⟨hmonth1, hmonth12⟩, hday1⟩, hday⟩ := hvalid
  have hday31 : d.day ≤ 31 := by
    have hmost : daysInMonth d.year d.month ≤ 31 := by
      unfold daysInMonth
      split
      · split <;> omega
      · omega
      · omega
      · omega
      · omega
      · omega
    omega
  have hdash : isBlank '-' = false := by decide
  have hcolon : isBlank ':' = false := by decide
  simp only [List.append_assoc, List.cons_append]
  simp only [scan, bind, Except.bind, scanYear_yearText hyear.1 hyear.2, scanMark_cons hdash,
    scanNumber_padded 12 hmonth1 hmonth12 (by omega), scanNumber_padded 31 hday1 hday31 (by omega)]
  simp only [scanSeparator, hmark, if_true, scanMark_cons hcolon,
    scanNumber_padded 23 (Nat.zero_le hour) hhour (by omega),
    scanNumber_padded 59 (Nat.zero_le minute) hminute (by omega),
    scanNumber_padded 60 (Nat.zero_le second) hsecond (by omega), hfraction, hzone]
  rfl

theorem ofParts?_self (t : Instant) : ofParts? t.seconds t.nanos = some t :=
  dif_pos ⟨t.first_le, t.le_last, t.nanos_lt, t.leap_last⟩

/-- What a text says that tells an instant by the clocks `offset` seconds east of UTC. A leap second
is second 60. -/
def localReading (t : Instant) (offset : Int) : Reading :=
  let s := ((t.seconds + offset) % 86400).toNat
  let leap := nanosPerSecond ≤ t.nanos
  { date := Date.ofDayNumber ((t.seconds + offset) / 86400)
    hour := s / 3600
    minute := s / 60 % 60
    second := if leap then s % 60 + 1 else s % 60
    nanos := if leap then t.nanos - nanosPerSecond else t.nanos
    offset := offset }

/-- The numbers of a local time are those of a clock. -/
theorem localReading_bounds (t : Instant) (offset : Int) :
    (t.localReading offset).date.isValid = true ∧ (t.localReading offset).hour ≤ 23
      ∧ (t.localReading offset).minute ≤ 59 ∧ (t.localReading offset).second ≤ 60
      ∧ (t.localReading offset).nanos < 1000000000 := by
  have hnanos := t.nanos_lt
  unfold nanosPerSecond at hnanos
  refine ⟨isValid_ofDayNumber _, ?_, ?_, ?_, ?_⟩
  · simp only [localReading]
    omega
  · simp only [localReading]
    omega
  · simp only [localReading]
    split <;> omega
  · simp only [localReading]
    unfold nanosPerSecond
    split <;> omega

/-- What is told by local clocks that are whole minutes ahead of UTC, or behind it, is the instant,
if the local time is within the range of years. -/
theorem toInstant_localReading (t : Instant) {offset : Int} (hminute : offset % 60 = 0)
    (hoffset : offset.natAbs < 86400) (hfirst : firstSecond ≤ t.seconds + offset)
    (hlast : t.seconds + offset ≤ lastSecond) : (t.localReading offset).toInstant = .ok t := by
  have hself := ofParts?_self t
  unfold localReading
  generalize hs : t.seconds + offset = s at hfirst hlast ⊢
  simp only [Reading.toInstant, dayNumber_ofDayNumber, isValid_ofDayNumber, true_and]
  have hback : s - offset = t.seconds := by omega
  by_cases hin : nanosPerSecond ≤ t.nanos
  · -- a leap second: second 60 of the text is second 59 of the count
    have hlocal : s % 60 = 59 := by
      have hfiftyNine := t.leap_last hin
      omega
    have hclock : s / 86400 * 86400 + ((((s % 86400).toNat / 3600 * 60
        + (s % 86400).toNat / 60 % 60) * 60 + min ((s % 86400).toNat % 60 + 1) 59 : Nat) : Int)
        = s := by omega
    have hsixty : (s % 86400).toNat % 60 + 1 = 60 := by omega
    have hnanos : nanosPerSecond + (t.nanos - nanosPerSecond) = t.nanos := by omega
    rw [if_pos hin, if_pos hin, hclock, if_pos hsixty, hnanos, if_pos ⟨hfirst, hlast, hoffset⟩,
      hback, hself]
  · have hclock : s / 86400 * 86400 + ((((s % 86400).toNat / 3600 * 60
        + (s % 86400).toNat / 60 % 60) * 60 + min ((s % 86400).toNat % 60) 59 : Nat) : Int)
        = s := by omega
    have hsixty : ¬ (s % 86400).toNat % 60 = 60 := by omega
    rw [if_neg hin, if_neg hin, hclock, if_neg hsixty, if_pos ⟨hfirst, hlast, hoffset⟩, hback,
      hself]

/-- The scanner finds every part of an instant's text; a leap second is scanned as second 60. -/
theorem scan_print (t : Instant) : scan t.print = .ok (t.localReading 0) := by
  have hfirst := t.first_le
  have hlast := t.le_last
  unfold firstSecond at hfirst
  unfold lastSecond at hlast
  have hyear : -300000 ≤ (t.localReading 0).date.year ∧ (t.localReading 0).date.year ≤ 300000 :=
    year_ofDayNumber_bounds (by omega) (by omega)
  obtain ⟨hvalid, hhour, hminute, hsecond, hnanos⟩ := t.localReading_bounds 0
  have hscan := scan_parts hyear hvalid hhour hminute hsecond (Or.inl rfl)
    (scanFraction_fractionText hnanos) (rfl : scanOffset (trimLeft ['Z']) = .ok (0, []))
  simpa only [localReading, Int.add_zero, print, date, secondOfDay] using hscan

/-- Reading the text of an instant gives the instant. -/
theorem read_print (t : Instant) : read t.print = .ok t := by
  have hfirst : firstSecond ≤ t.seconds + 0 := by simpa using t.first_le
  have hlast : t.seconds + 0 ≤ lastSecond := by simpa using t.le_last
  rw [read, scan_print]
  exact t.toInstant_localReading (by decide) (by decide) hfirst hlast

end TaskBoard.Instant
