import TaskBoard.Proofs.Text.Spelling
import TaskBoard.Startup

/-!
# Which configurations are accepted

A configuration is accepted exactly if each of its values is good, and otherwise the error is about
the first value that is not, in a fixed order. What is accepted is what the values describe, and
with a database there is always an address to connect to.

* `given_iff`: a value without the blanks around it, if anything is left;
* `modeOf_eq_ok_iff`, `isSetting_of_numberOf`: the storage mode and the numbers;
* `Outcome`, `Outcome.bind`: values that are read one after another, up to the first that is wrong;
* `ofLookup_exact`: the configuration or the error, for any values.
-/

namespace TaskBoard.Config

open Text

/-! ## What the values mean -/

/-- The names of the values. -/
def valueNames : List String :=
  ["STORAGE_MODE", "DATABASE_URL", "REDIS_ADDR", "HOST", "PORT", "CACHE_TTL_SECS",
    "CACHE_OP_TIMEOUT_MS", "REQUEST_TIMEOUT_SECS", "DATABASE_MAX_CONNECTIONS"]

variable (lookup : String → Option String)

/-- A value is given: it is not blank, and it is taken without the blanks around it. -/
def Given (name value : String) : Prop :=
  ∃ text, lookup name = some text ∧ IsCore value.toList text.toList ∧ value ≠ ""

/-- No value is given, or a blank one. -/
def Missing (name : String) : Prop := ∀ value, ¬ Given lookup name value

/-- The names of the storage modes. -/
def modeNames : StorageMode → List String
  | .inMemory => ["in_memory", "inmemory", "memory"]
  | .postgres => ["postgres", "postgresql", "pg"]

/-- A text names a storage mode, in any letter case. -/
def NamesMode (value : String) (m : StorageMode) : Prop :=
  ∃ name ∈ modeNames m, InAnyCase value.toList name

/-- The storage mode that the values ask for. Without a name for it a database address asks for the
database. -/
inductive AsksMode : StorageMode → Prop
  | named {value : String} {m : StorageMode} :
      Given lookup "STORAGE_MODE" value → NamesMode value m → AsksMode m
  | database {url : String} :
      Missing lookup "STORAGE_MODE" → Given lookup "DATABASE_URL" url → AsksMode .postgres
  | memory : Missing lookup "STORAGE_MODE" → Missing lookup "DATABASE_URL" → AsksMode .inMemory

/-- A value that is a number: its bits, its default, and where it goes. -/
structure NumberSetting where
  name : String
  bits : Nat
  default : Nat
  get : Config → Nat

/-- The values that are numbers, in the order in which they are read. -/
def numberSettings : List NumberSetting :=
  [⟨"PORT", 16, 8080, port⟩, ⟨"CACHE_TTL_SECS", 64, 60, cacheTtl⟩,
    ⟨"CACHE_OP_TIMEOUT_MS", 64, 500, cacheOpTimeout⟩,
    ⟨"REQUEST_TIMEOUT_SECS", 64, 30, requestTimeout⟩,
    ⟨"DATABASE_MAX_CONNECTIONS", 32, 10, databaseMaxConnections⟩]

/-- A text is a number of so many bits: digits, with a plus sign or without. -/
def IsNumber (bits : Nat) (value : String) (n : Nat) : Prop :=
  IsUnsigned value.toList n ∧ n < 2 ^ bits

/-- The number of a setting: as it is given, or its default. -/
def IsSetting (s : NumberSetting) (n : Nat) : Prop :=
  (∃ value, Given lookup s.name value ∧ IsNumber s.bits value n)
    ∨ Missing lookup s.name ∧ n = s.default

/-- Every value that is given is good, and there is a database address if the mode needs one. -/
structure Good : Prop where
  storageMode : ∀ value, Given lookup "STORAGE_MODE" value → ∃ m, NamesMode value m
  databaseUrl : AsksMode lookup .postgres → ∃ url, Given lookup "DATABASE_URL" url
  numbers : ∀ s ∈ numberSettings, ∀ value, Given lookup s.name value → ∃ n, IsNumber s.bits value n

/-- What is wrong with the values, each at its place in the order in which they are read. -/
inductive Violates : Nat → ConfigError → Prop
  | storageMode {value : String} :
      Given lookup "STORAGE_MODE" value → (∀ m, ¬ NamesMode value m) →
      Violates 0 (.invalidStorageMode value)
  | databaseUrl :
      AsksMode lookup .postgres → Missing lookup "DATABASE_URL" → Violates 1 .missingDatabaseUrl
  | number {i : Nat} {s : NumberSetting} {value : String} :
      numberSettings[i]? = some s → Given lookup s.name value →
      (∀ n, ¬ IsNumber s.bits value n) → Violates (i + 2) (.invalidValue s.name value)

/-- The error is about the first place at which something is wrong. -/
def FirstViolation (e : ConfigError) : Prop :=
  ∃ place, Violates lookup place e ∧ ∀ earlier < place, ∀ e', ¬ Violates lookup earlier e'

/-- The configuration is the one that the values describe. -/
structure Describes (c : Config) : Prop where
  storageMode : AsksMode lookup c.storageMode
  databaseUrl : ∀ url, c.databaseUrl = some url ↔ Given lookup "DATABASE_URL" url
  redisAddress : ∀ address, c.redisAddress = some address ↔ Given lookup "REDIS_ADDR" address
  host : Given lookup "HOST" c.host ∨ Missing lookup "HOST" ∧ c.host = "0.0.0.0"
  numbers : ∀ s ∈ numberSettings, IsSetting lookup s (s.get c)
  /-- A database has an address. -/
  postgres : c.storageMode = .postgres → c.databaseUrl ≠ none

variable {lookup}

/-! ## Single values -/

theorem given_iff {name value : String} :
    present (lookup name) = some value ↔ Given lookup name value := by
  rw [present, Option.filter_eq_some_iff, Option.map_eq_some_iff]
  constructor
  · rintro ⟨⟨text, htext, rfl⟩, hempty⟩
    refine ⟨text, htext, ?_, ?_⟩
    · rw [trimmed, String.toList_ofList]
      exact isCore_trim text.toList
    · simpa using hempty
  · rintro ⟨text, htext, hcore, hempty⟩
    refine ⟨⟨text, htext, ?_⟩, ?_⟩
    · rw [trimmed, isCore_iff.1 hcore, String.ofList_toList]
    · simpa using hempty

theorem missing_iff {name : String} : present (lookup name) = none ↔ Missing lookup name := by
  rw [Option.eq_none_iff_forall_ne_some]
  simp only [ne_eq, given_iff, Missing]

theorem namesMode_iff {value : String} {m : StorageMode} :
    NamesMode value m ↔ lowered value ∈ modeNames m := by
  simp only [NamesMode, lowered, ← ofList_map_lowerAscii_eq_iff, exists_eq_right']

theorem read_eq (value : String) : StorageMode.read value
    = if lowered value ∈ modeNames .inMemory then .ok .inMemory
      else if lowered value ∈ modeNames .postgres then .ok .postgres
      else .error (.invalidStorageMode value) := rfl

theorem read_of_namesMode {value : String} {m : StorageMode} (h : NamesMode value m) :
    StorageMode.read value = .ok m := by
  -- no name is that of both modes
  have hdisjoint : ∀ name ∈ modeNames .postgres, name ∉ modeNames .inMemory := by decide
  have hname := namesMode_iff.1 h
  rcases m with _ | _
  · rw [read_eq, if_pos hname]
  · rw [read_eq, if_neg (hdisjoint _ hname), if_pos hname]

theorem read_of_unnamed {value : String} (h : ∀ m, ¬ NamesMode value m) :
    StorageMode.read value = .error (.invalidStorageMode value) := by
  simp only [namesMode_iff] at h
  rw [read_eq, if_neg (h .inMemory), if_neg (h .postgres)]

/-- The storage mode that is read of the values. -/
def modeOf (lookup : String → Option String) : Except ConfigError StorageMode :=
  mode (present (lookup "STORAGE_MODE")) (present (lookup "DATABASE_URL"))

theorem given_unique {name value value' : String} (h : Given lookup name value)
    (h' : Given lookup name value') : value = value' := by
  rw [← given_iff] at h h'
  rw [h] at h'
  exact Option.some.inj h'

theorem given_or_missing (lookup : String → Option String) (name : String) :
    (∃ value, Given lookup name value) ∨ Missing lookup name := by
  rcases hpresent : present (lookup name) with _ | value
  · exact Or.inr (missing_iff.1 hpresent)
  · exact Or.inl ⟨value, given_iff.1 hpresent⟩

theorem modeOf_given {value : String} (h : Given lookup "STORAGE_MODE" value) :
    modeOf lookup = StorageMode.read value := by
  rw [modeOf, given_iff.2 h]
  rfl

theorem modeOf_missing (h : Missing lookup "STORAGE_MODE") : modeOf lookup
    = .ok (if (present (lookup "DATABASE_URL")).isSome then .postgres else .inMemory) := by
  rw [modeOf, missing_iff.2 h]
  rfl

theorem modeOf_of_asksMode {m : StorageMode} (h : AsksMode lookup m) : modeOf lookup = .ok m := by
  rcases h with ⟨hgiven, hnames⟩ | ⟨hmissing, hurl⟩ | ⟨hmissing, hurl⟩
  · rw [modeOf_given hgiven, read_of_namesMode hnames]
  · rw [modeOf_missing hmissing, given_iff.2 hurl]
    rfl
  · rw [modeOf_missing hmissing, missing_iff.2 hurl]
    rfl

theorem modeOf_of_violates {e : ConfigError} (h : Violates lookup 0 e) :
    modeOf lookup = .error e := by
  rcases h with ⟨hgiven, hnone⟩
  rw [modeOf_given hgiven, read_of_unnamed hnone]

/-- The values ask for a mode, or what they give for it is no name of one. -/
theorem asksMode_or_violates (lookup : String → Option String) :
    (∃ m, AsksMode lookup m) ∨ ∃ e, Violates lookup 0 e := by
  rcases given_or_missing lookup "STORAGE_MODE" with ⟨value, hgiven⟩ | hmissing
  · by_cases hnames : ∃ m, NamesMode value m
    · rcases hnames with ⟨m, hm⟩
      exact Or.inl ⟨m, .named hgiven hm⟩
    · exact Or.inr ⟨_, .storageMode hgiven (not_exists.1 hnames)⟩
  · rcases given_or_missing lookup "DATABASE_URL" with ⟨url, hurl⟩ | hurl
    · exact Or.inl ⟨_, .database hmissing hurl⟩
    · exact Or.inl ⟨_, .memory hmissing hurl⟩

theorem modeOf_eq_ok_iff {m : StorageMode} : modeOf lookup = .ok m ↔ AsksMode lookup m := by
  constructor
  · intro h
    rcases asksMode_or_violates lookup with ⟨m', hasks⟩ | ⟨e, hviolates⟩
    · rw [modeOf_of_asksMode hasks] at h
      cases h
      exact hasks
    · rw [modeOf_of_violates hviolates] at h
      cases h
  · exact modeOf_of_asksMode

theorem modeOf_eq_error_iff {e : ConfigError} : modeOf lookup = .error e ↔ Violates lookup 0 e := by
  constructor
  · intro h
    rcases asksMode_or_violates lookup with ⟨m, hasks⟩ | ⟨e', hviolates⟩
    · rw [modeOf_of_asksMode hasks] at h
      cases h
    · rw [modeOf_of_violates hviolates] at h
      cases h
      exact hviolates
  · exact modeOf_of_violates

/-- The number that is read of the values for a setting. -/
def numberOf (lookup : String → Option String) (s : NumberSetting) : Except ConfigError Nat :=
  number s.name (present (lookup s.name)) s.bits s.default

variable {s : NumberSetting}

theorem numberOf_missing (h : Missing lookup s.name) : numberOf lookup s = .ok s.default := by
  rw [numberOf, missing_iff.2 h]
  rfl

/-- A value that is given is read as the number that it is, or refused. -/
theorem numberOf_given {value : String} (h : Given lookup s.name value) :
    (∃ n, numberOf lookup s = .ok n ∧ IsNumber s.bits value n)
      ∨ numberOf lookup s = .error (.invalidValue s.name value)
        ∧ ∀ n, ¬ IsNumber s.bits value n := by
  rw [numberOf, given_iff.2 h, number]
  simp only [IsNumber, ← readUnsigned?_eq_some_iff]
  rcases readUnsigned? value.toList with _ | n
  · right
    simp
  · by_cases hlt : n < Nat.pow 2 s.bits
    · left
      exact ⟨n, if_pos hlt, rfl, hlt⟩
    · right
      refine ⟨if_neg hlt, ?_⟩
      rintro m ⟨heq, hm⟩
      rw [Option.some.inj heq] at hlt
      exact hlt hm

theorem isSetting_of_numberOf {n : Nat} (h : numberOf lookup s = .ok n) : IsSetting lookup s n := by
  rcases given_or_missing lookup s.name with ⟨value, hgiven⟩ | hmissing
  · rcases numberOf_given hgiven with ⟨n', hread, hnumber⟩ | ⟨hread, -⟩
    · rw [hread] at h
      cases h
      exact Or.inl ⟨value, hgiven, hnumber⟩
    · rw [hread] at h
      cases h
  · rw [numberOf_missing hmissing] at h
    cases h
    exact Or.inr ⟨hmissing, rfl⟩

theorem numberOf_eq_error_iff {i : Nat} {e : ConfigError} (hs : numberSettings[i]? = some s) :
    numberOf lookup s = .error e ↔ Violates lookup (i + 2) e := by
  constructor
  · intro h
    rcases given_or_missing lookup s.name with ⟨value, hgiven⟩ | hmissing
    · rcases numberOf_given hgiven with ⟨n, hread, -⟩ | ⟨hread, hnone⟩
      · rw [hread] at h
        cases h
      · rw [hread] at h
        cases h
        exact .number hs hgiven hnone
    · rw [numberOf_missing hmissing] at h
      cases h
  · intro h
    rcases h with - | - | ⟨hs', hgiven, hnone⟩
    rw [hs] at hs'
    cases hs'
    rcases numberOf_given hgiven with ⟨n, -, hnumber⟩ | ⟨hread, -⟩
    · exact absurd hnumber (hnone n)
    · exact hread

/-! ## One value after another -/

/-- The check for the address of the database. -/
def checkUrl (lookup : String → Option String) (m : StorageMode) : Except ConfigError Unit :=
  if m = .postgres ∧ present (lookup "DATABASE_URL") = none then .error .missingDatabaseUrl
  else .ok ()

theorem checkUrl_eq_error_iff {m : StorageMode} {e : ConfigError} (hm : AsksMode lookup m) :
    checkUrl lookup m = .error e ↔ Violates lookup 1 e := by
  unfold checkUrl
  constructor
  · intro h
    split at h
    · rename_i hnone
      cases h
      rcases hnone with ⟨rfl, hnone⟩
      exact .databaseUrl hm (missing_iff.1 hnone)
    · cases h
  · intro h
    rcases h with - | ⟨hpostgres, hmissing⟩
    -- the values ask for one mode
    rw [← modeOf_eq_ok_iff] at hm hpostgres
    rw [hm] at hpostgres
    rw [if_pos ⟨Except.ok.inj hpostgres, missing_iff.2 hmissing⟩]

/-- What is the outcome of reading from a place on, if nothing is wrong before it. -/
def Outcome {α : Type} (lookup : String → Option String) (place : Nat) (x : Except ConfigError α)
    (post : α → Prop) : Prop :=
  (∀ earlier < place, ∀ e, ¬ Violates lookup earlier e) →
    (∀ a, x = .ok a → post a) ∧ ∀ e, x = .error e → FirstViolation lookup e

/-- A step that fails exactly if something is wrong at its place, and what is read after it. -/
theorem Outcome.bind {α β : Type} {place : Nat} {x : Except ConfigError α}
    {f : α → Except ConfigError β} {post : β → Prop}
    (hx : ∀ e, x = .error e ↔ Violates lookup place e)
    (hf : ∀ a, x = .ok a → Outcome lookup (place + 1) (f a) post) :
    Outcome lookup place (x.bind f) post := by
  intro hearlier
  rcases hread : x with e | a
  · constructor
    · intro b hb
      cases hb
    · intro e' he'
      cases he'
      exact ⟨place, (hx e).1 hread, hearlier⟩
  · apply hf a hread
    intro earlier hlt e hviolates
    rcases Nat.lt_succ_iff_lt_or_eq.1 hlt with hlt | rfl
    · exact hearlier earlier hlt e hviolates
    · rw [(hx e).2 hviolates] at hread
      cases hread

/-- The values are read in this order. -/
theorem ofLookup_eq (lookup : String → Option String) : ofLookup lookup =
    (modeOf lookup).bind fun storageMode => (checkUrl lookup storageMode).bind fun _ =>
      (numberOf lookup ⟨"PORT", 16, 8080, port⟩).bind fun port =>
        (numberOf lookup ⟨"CACHE_TTL_SECS", 64, 60, cacheTtl⟩).bind fun cacheTtl =>
          (numberOf lookup ⟨"CACHE_OP_TIMEOUT_MS", 64, 500, cacheOpTimeout⟩).bind
            fun cacheOpTimeout =>
              (numberOf lookup ⟨"REQUEST_TIMEOUT_SECS", 64, 30, requestTimeout⟩).bind
                fun requestTimeout =>
                  (numberOf lookup ⟨"DATABASE_MAX_CONNECTIONS", 32, 10, databaseMaxConnections⟩).bind
                    fun databaseMaxConnections => .ok {
                      storageMode, port, cacheTtl, cacheOpTimeout, requestTimeout
                      databaseMaxConnections
                      databaseUrl := present (lookup "DATABASE_URL")
                      redisAddress := present (lookup "REDIS_ADDR")
                      host := (present (lookup "HOST")).getD "0.0.0.0" } := by
  unfold ofLookup
  show (modeOf lookup).bind _ = _
  congr 1
  funext storageMode
  unfold checkUrl
  split
  · rfl
  · rfl

theorem not_violates_of_le {place : Nat} {e : ConfigError} (h : 7 ≤ place) :
    ¬ Violates lookup place e := by
  intro hviolates
  rcases hviolates with - | - | @⟨i, _, _, hs, -⟩
  · omega
  · omega
  · have hlength : numberSettings.length ≤ i := by
      show 5 ≤ i
      omega
    rw [List.getElem?_eq_none hlength] at hs
    cases hs

theorem isGivenOr_getD (name default : String) :
    Given lookup name ((present (lookup name)).getD default)
      ∨ Missing lookup name ∧ (present (lookup name)).getD default = default := by
  rcases given_or_missing lookup name with ⟨value, hgiven⟩ | hmissing
  · left
    rw [given_iff.2 hgiven]
    exact hgiven
  · right
    rw [missing_iff.2 hmissing]
    exact ⟨hmissing, rfl⟩

theorem outcome_ofLookup (lookup : String → Option String) : Outcome lookup 0 (ofLookup lookup)
    fun c => Describes lookup c ∧ ∀ place e, ¬ Violates lookup place e := by
  rw [ofLookup_eq]
  apply Outcome.bind fun _ => modeOf_eq_error_iff
  intro storageMode hmode
  have hasks := modeOf_eq_ok_iff.1 hmode
  apply Outcome.bind fun _ => checkUrl_eq_error_iff hasks
  intro _ hurl
  apply Outcome.bind fun _ => numberOf_eq_error_iff rfl
  intro port hport
  apply Outcome.bind fun _ => numberOf_eq_error_iff rfl
  intro cacheTtl hcacheTtl
  apply Outcome.bind fun _ => numberOf_eq_error_iff rfl
  intro cacheOpTimeout hcacheOpTimeout
  apply Outcome.bind fun _ => numberOf_eq_error_iff rfl
  intro requestTimeout hrequestTimeout
  apply Outcome.bind fun _ => numberOf_eq_error_iff rfl
  intro databaseMaxConnections hdatabaseMaxConnections hearlier
  constructor
  · intro c hc
    cases hc
    constructor
    · exact {
        storageMode := hasks
        databaseUrl := fun _ => given_iff
        redisAddress := fun _ => given_iff
        host := isGivenOr_getD "HOST" "0.0.0.0"
        numbers := by
          intro s hs
          simp only [numberSettings, List.mem_cons, List.not_mem_nil, or_false] at hs
          rcases hs with rfl | rfl | rfl | rfl | rfl
          · exact isSetting_of_numberOf hport
          · exact isSetting_of_numberOf hcacheTtl
          · exact isSetting_of_numberOf hcacheOpTimeout
          · exact isSetting_of_numberOf hrequestTimeout
          · exact isSetting_of_numberOf hdatabaseMaxConnections
        postgres := by
          intro hpostgres hnone
          rw [checkUrl, if_pos ⟨hpostgres, hnone⟩] at hurl
          cases hurl }
    · intro place e
      by_cases hlt : place < 7
      · exact hearlier place hlt e
      · exact not_violates_of_le (Nat.le_of_not_lt hlt)
  · intro e he
    cases he

/-! ## All values -/

theorem describes_of_ofLookup {c : Config} (h : ofLookup lookup = .ok c) :
    Describes lookup c ∧ ∀ place e, ¬ Violates lookup place e :=
  (outcome_ofLookup lookup fun _ hlt => absurd hlt (Nat.not_lt_zero _)).1 c h

theorem firstViolation_of_ofLookup {e : ConfigError} (h : ofLookup lookup = .error e) :
    FirstViolation lookup e :=
  (outcome_ofLookup lookup fun _ hlt => absurd hlt (Nat.not_lt_zero _)).2 e h

theorem violates_unique {place : Nat} {e e' : ConfigError} (h : Violates lookup place e)
    (h' : Violates lookup place e') : e = e' := by
  rcases h with ⟨hgiven, -⟩ | - | ⟨hs, hgiven, -⟩
  · rcases h' with ⟨hgiven', -⟩
    rw [given_unique hgiven hgiven']
  · rcases h' with - | -
    rfl
  · rcases h' with - | - | ⟨hs', hgiven', -⟩
    rw [hs] at hs'
    cases hs'
    rw [given_unique hgiven hgiven']

theorem firstViolation_unique {e e' : ConfigError} (h : FirstViolation lookup e)
    (h' : FirstViolation lookup e') : e = e' := by
  rcases h with ⟨place, hviolates, hearlier⟩
  rcases h' with ⟨place', hviolates', hearlier'⟩
  rcases Nat.lt_trichotomy place place' with hlt | rfl | hlt
  · exact absurd hviolates (hearlier' place hlt e)
  · exact violates_unique hviolates hviolates'
  · exact absurd hviolates' (hearlier place' hlt e')

/-- All values are good if and only if nothing is wrong anywhere. -/
theorem good_iff : Good lookup ↔ ∀ place e, ¬ Violates lookup place e := by
  constructor
  · intro h place e hviolates
    rcases hviolates with ⟨hgiven, hnone⟩ | ⟨hasks, hmissing⟩ | ⟨hs, hgiven, hnone⟩
    · rcases h.storageMode _ hgiven with ⟨m, hm⟩
      exact hnone m hm
    · rcases h.databaseUrl hasks with ⟨url, hurl⟩
      exact hmissing url hurl
    · rcases h.numbers _ (List.mem_of_getElem? hs) _ hgiven with ⟨n, hn⟩
      exact hnone n hn
  · intro h
    refine ⟨?_, ?_, ?_⟩
    · intro value hgiven
      apply Classical.byContradiction
      intro hnone
      exact h 0 _ (.storageMode hgiven (not_exists.1 hnone))
    · intro hasks
      apply Classical.byContradiction
      intro hnone
      exact h 1 _ (.databaseUrl hasks (not_exists.1 hnone))
    · intro s hs value hgiven
      rcases List.mem_iff_getElem?.1 hs with ⟨i, hi⟩
      apply Classical.byContradiction
      intro hnone
      exact h (i + 2) _ (.number hi hgiven (not_exists.1 hnone))

theorem ofLookup_eq_error_iff {e : ConfigError} :
    ofLookup lookup = .error e ↔ FirstViolation lookup e := by
  constructor
  · exact firstViolation_of_ofLookup
  · intro hfirst
    rcases hread : ofLookup lookup with e' | c
    · rw [firstViolation_unique (firstViolation_of_ofLookup hread) hfirst]
    · rcases hfirst with ⟨place, hviolates, -⟩
      exact absurd hviolates ((describes_of_ofLookup hread).2 place e)

theorem ofLookup_eq_ok_iff : (∃ c, ofLookup lookup = .ok c) ↔ Good lookup := by
  rw [good_iff]
  constructor
  · rintro ⟨c, hread⟩
    exact (describes_of_ofLookup hread).2
  · intro hnone
    rcases hread : ofLookup lookup with e | c
    · rcases firstViolation_of_ofLookup hread with ⟨place, hviolates, -⟩
      exact absurd hviolates (hnone place e)
    · exact ⟨c, rfl⟩

/-- Only what is given under the nine names counts. -/
theorem ofLookup_congr {lookup' : String → Option String}
    (h : ∀ name ∈ valueNames, ∀ value, Given lookup name value ↔ Given lookup' name value) :
    ofLookup lookup = ofLookup lookup' := by
  have hpresent : ∀ name ∈ valueNames, present (lookup name) = present (lookup' name) := by
    intro name hname
    apply Option.ext
    intro value
    rw [given_iff, given_iff, h name hname]
  simp only [valueNames, List.forall_mem_cons] at hpresent
  rcases hpresent with ⟨hmode, hurl, hredis, hhost, hport, httl, hop, hrequest, hmax, -⟩
  simp only [ofLookup_eq, modeOf, checkUrl, numberOf, hmode, hurl, hredis, hhost, hport, httl, hop,
    hrequest, hmax]

/-! ## Connecting to the database -/

/-- Makes a store ready that is in the database at an address. -/
def openDatabase (url : String) (b : Run.Backend) : Except TaskError Unit × Run.Backend :=
  match DatabaseAddress.check url *> Sql.connect b.database with
  | .error e => (.error e, b)
  | .ok () => ((Sql.ensureSchema b.database).1,
    { b with database := (Sql.ensureSchema b.database).2, inDatabase := true })

theorem openStore_postgres {c : Config} {url : String} (hmode : c.storageMode = .postgres)
    (hurl : c.databaseUrl = some url) (b : Run.Backend) :
    Startup.openStore c b = openDatabase url b := by
  unfold Startup.openStore openDatabase
  rw [hmode, hurl]
  rfl

/-- A configuration is accepted exactly if all values are good, and is then the one that they
describe; otherwise the error is about the first that is wrong. Nothing but what is given under the
nine names counts. And with a database the service connects to an address that has been given. -/
theorem ofLookup_exact (lookup : String → Option String) :
    ((∃ c, ofLookup lookup = .ok c) ↔ Good lookup)
    ∧ (∀ c, ofLookup lookup = .ok c → Describes lookup c)
    ∧ (∀ e, ofLookup lookup = .error e ↔ FirstViolation lookup e)
    ∧ (∀ lookup',
        (∀ name ∈ valueNames, ∀ value, Given lookup name value ↔ Given lookup' name value) →
        ofLookup lookup = ofLookup lookup')
    ∧ ∀ c, ofLookup lookup = .ok c → c.storageMode = .postgres →
        ∃ url, c.databaseUrl = some url ∧ url ≠ "" ∧ trimmed url = url
          ∧ ∀ b, Startup.openStore c b = openDatabase url b := by
  refine ⟨ofLookup_eq_ok_iff, fun c hc => (describes_of_ofLookup hc).1,
    fun e => ofLookup_eq_error_iff, fun lookup' => ofLookup_congr, ?_⟩
  intro c hc hpostgres
  have hdescribes := (describes_of_ofLookup hc).1
  rcases Option.ne_none_iff_exists'.1 (hdescribes.postgres hpostgres) with ⟨url, hurl⟩
  rcases (hdescribes.databaseUrl url).1 hurl with ⟨text, -, hcore, hempty⟩
  refine ⟨url, hurl, hempty, ?_, openStore_postgres hpostgres hurl⟩
  -- what has been trimmed has no blanks at its ends
  have htrimmed : trim url.toList = url.toList := trim_of_ends hcore.head hcore.last
  rw [trimmed, htrimmed, String.ofList_toList]

end TaskBoard.Config
