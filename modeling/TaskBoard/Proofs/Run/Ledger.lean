import TaskBoard.Proofs.Run.Account
import TaskBoard.Proofs.Run.History
import Mathlib.Algebra.BigOperators.Group.List.Basic
import Mathlib.Algebra.Ring.Int.Defs
import Mathlib.Data.List.Nodup

/-!
# Commits and counts

A trace tells which creates and deletes have been committed in the store and which of them have
been counted in the gauge. If every operation pays what it owes and no caller begins twice, nobody
commits or counts more than once, and only what has been committed is counted.

* `entries_follows`: the commits and counts of one operation;
* `entries_run`: those of one caller, in every interleaving;
* `balance_run`: the gauge and the number of stored tasks differ by what has not been counted.
-/

namespace TaskBoard

/-- The change of the gauge that a call with this answer makes due. -/
def StoreCall.due : (call : StoreCall) → call.Reply → Option GaugeChange
  | .create _, .ok _ => some .increment
  | .delete _, .ok true => some .decrement
  | _, _ => none

/-- What a change adds to the gauge, if it does not overwrite it. -/
def GaugeChange.amount : GaugeChange → Int
  | increment => 1
  | decrement => -1
  | assign _ => 0

namespace StoreCall

variable {call : StoreCall} {reply : call.Reply}

theorem due_ne_assign {n : Int64} : call.due reply ≠ some (.assign n) := by
  unfold due
  split <;> simp

end StoreCall

namespace Run

variable {ι : Type} {β : ι → Type}

/-- Who has committed a create or delete, and what is due for it. -/
def Event.commit? : Event β → Option (ι × GaugeChange)
  | .store r call reply _ => (call.due reply).map (r, ·)
  | _ => none

/-- Who has changed the gauge, and how. -/
def Event.count? : Event β → Option (ι × GaugeChange)
  | .gauge r change => some (r, change)
  | _ => none

/-- The creates and deletes that have been committed. -/
def commits (trace : List (Event β)) : List (ι × GaugeChange) := trace.filterMap Event.commit?

/-- The changes of the gauge. -/
def counts (trace : List (Event β)) : List (ι × GaugeChange) := trace.filterMap Event.count?

/-! ## One operation -/

/-- The change of the gauge by `k`. -/
def due? (k : Int) : Option GaugeChange :=
  if k = 1 then some .increment else if k = -1 then some .decrement else none

theorem due?_sizeChange (call : StoreCall) (reply : call.Reply) :
    due? (call.sizeChange reply) = call.due reply := by
  cases call with
  | create draft => cases reply <;> rfl
  | delete id => rcases reply with e | _ | _ <;> rfl
  | _ => rfl

/-- What `r` owes when it owes `k`. -/
def owed (r : ι) (k : Int) : List (ι × GaugeChange) := (due? k).toList.map (r, ·)

theorem owed_zero (r : ι) : owed r 0 = [] := rfl

theorem length_owed_le (r : ι) (k : Int) : (owed r k).length ≤ 1 := by
  unfold owed
  cases due? k <;> simp

theorem commits_store {call : StoreCall} {reply : call.Reply} {time : Nat} {r : ι}
    {events : List (Event β)} :
    commits (.store r call reply time :: events)
      = owed r (call.sizeChange reply) ++ commits events := by
  unfold commits owed
  rw [due?_sizeChange, List.filterMap_cons]
  cases hdue : call.due reply <;> simp [Event.commit?, hdue]

/-- Neither the first nor the last event is an entry. -/
theorem filterMap_between {f : Event β → Option (ι × GaugeChange)} {e e' : Event β}
    (he : f e = none) (he' : f e' = none) (events : List (Event β)) :
    (e :: events ++ [e']).filterMap f = events.filterMap f := by
  rw [List.cons_append, List.filterMap_cons_none he, List.filterMap_append,
    List.filterMap_cons_none he', List.filterMap_nil, List.append_nil]

variable {r : ι} {good : β r → Prop} {op left : Operation (β r)} {events : List (Event β)}

/-- What an operation owed and has committed is what it has counted and owes now, and it is one
change at most. -/
theorem entries_follows {k : Int} (h : Pays good k op) (hfollows : Follows r op events left) :
    ∃ k', Pays good k' left ∧ owed r k ++ commits events = counts events ++ owed r k'
      ∧ (owed r k ++ commits events).length ≤ 1 := by
  induction hfollows generalizing k with
  | refl op =>
    refine ⟨k, h, ?_, ?_⟩
    · simp [commits, counts]
    · simpa [commits] using length_owed_le r k
  | @store call next reply time events left hfollows ih =>
    cases h with
    | store hnext =>
      -- what the call has changed is owed from then on
      obtain ⟨k', hpays, hentries, hlength⟩ := ih (hnext reply)
      rw [owed_zero, List.nil_append, commits_store]
      exact ⟨k', hpays, hentries, hlength⟩
  | cache hfollows ih =>
    cases h with
    | cache hnext =>
      obtain ⟨k', hpays, hentries, hlength⟩ := ih (hnext _)
      exact ⟨k', hpays, hentries, hlength⟩
  | gauge hfollows ih =>
    cases h with
    | increment hgood =>
      cases hfollows
      exact ⟨0, .done hgood, rfl, Nat.le_refl _⟩
    | decrement hgood =>
      cases hfollows
      exact ⟨0, .done hgood, rfl, Nat.le_refl _⟩

/-- Who only reads commits nothing. -/
theorem commits_of_reads (h : Reads op) (hfollows : Follows r op events left) :
    commits events = [] := by
  induction hfollows with
  | refl op => rfl
  | store hfollows ih =>
    cases h with
    | store hcall hnext =>
      rw [commits_store, StoreCall.sizeChange_of_reads hcall, owed_zero, ih (hnext _)]
      rfl
  | cache hfollows ih =>
    cases h with
    | cache hnext => exact ih (hnext _)
  | gauge hfollows ih => cases h

/-! ## The gauge and the number of stored tasks -/

/-- What entries come to. -/
def total (entries : List (ι × GaugeChange)) : Int := (entries.map fun entry => entry.2.amount).sum

/-- What entries come to is told by how many increments and decrements there are. -/
theorem total_eq {entries : List (ι × GaugeChange)}
    (h : ∀ entry ∈ entries, ∀ n, entry.2 ≠ .assign n) :
    total entries = (entries.countP fun entry => entry.2 = .increment)
      - (entries.countP fun entry => entry.2 = .decrement) := by
  induction entries with
  | nil => rfl
  | cons entry entries ih =>
    have hrest := ih fun entry' hmem => h entry' (List.mem_cons_of_mem _ hmem)
    have hentry := h entry List.mem_cons_self
    have htotal : total (entry :: entries) = entry.2.amount + total entries := rfl
    rw [htotal, hrest, List.countP_cons, List.countP_cons]
    rcases hchange : entry.2 with _ | _ | n
    · simp [GaugeChange.amount]
      omega
    · simp [GaugeChange.amount]
      omega
    · exact absurd hchange (hentry n)

variable {program : (r : ι) → Operation (β r)} {c : Conditions}
  {allowed : Pool β → Event β → Prop} {p p' : Pool β} {trace : List (Event β)} {e : Event β}

theorem commits_snoc (trace : List (Event β)) (e : Event β) :
    total (commits (trace ++ [e])) = total (commits trace) + total (commits [e]) := by
  simp [total, commits]

theorem counts_snoc (trace : List (Event β)) (e : Event β) :
    counts (trace ++ [e]) = counts trace ++ counts [e] := by
  simp [counts]

theorem total_commits_store {call : StoreCall} (reply : call.Reply) (time : Nat) (r : ι) :
    total (commits [(.store r call reply time : Event β)]) = call.sizeChange reply := by
  have howed : commits [(.store r call reply time : Event β)] = owed r (call.sizeChange reply) :=
    commits_store.trans (List.append_nil _)
  rw [howed, owed, due?_sizeChange]
  cases call with
  | create draft => cases reply <;> rfl
  | delete id => rcases reply with e | _ | _ <;> rfl
  | _ => rfl

theorem size_step (hstep : Step program c p e p') :
    (p'.world.table.size : Int) = p.world.table.size + total (commits [e]) := by
  have hnone : ∀ n : Int, n = n + total (ι := ι) [] := by simp [total]
  cases hstep with
  | @store w w' l js r call next since reply hanswer =>
    rw [total_commits_store]
    cases hanswer with
    | performs => exact Table.size_perform w.now (c.id w.ids) call w.table
    | fails e => simp [StoreCall.sizeChange_error]
  | cache hanswer =>
    simp only [hanswer.frame.2]
    exact hnone _
  | starts w jobs r => exact hnone _
  | waits wall hforward hcut => exact hnone _
  | gauge => exact hnone _
  | ends => exact hnone _
  | drops j => exact hnone _

/-- No commit asks for the gauge to be overwritten. -/
theorem commits_ne_assign {entry : ι × GaugeChange} (h : entry ∈ commits trace) (n : Int64) :
    entry.2 ≠ .assign n := by
  obtain ⟨e, -, he⟩ := List.mem_filterMap.1 h
  cases e with
  | store r call reply time =>
    obtain ⟨change, hdue, rfl⟩ := Option.map_eq_some_iff.1 he
    rintro rfl
    exact StoreCall.due_ne_assign hdue
  | _ => cases he

/-- The commits tell the number of stored tasks. -/
theorem size_run {p₀ : Pool β} (hrun : Runs program c allowed p₀ trace p) :
    (p.world.table.size : Int) = p₀.world.table.size + total (commits trace) := by
  induction hrun with
  | nil => simp [total, commits]
  | snoc hrun hallowed hstep ih =>
    rw [size_step hstep, ih, commits_snoc, Int.add_assoc]

theorem gauge_step (hstep : Step program c p e p')
    (hassign : ∀ entry ∈ counts [e], ∀ n, entry.2 ≠ .assign n) :
    p'.world.gauge = p.world.gauge + Int64.ofInt (total (counts [e])) := by
  have hnone : ∀ n : Int64, n = n + Int64.ofInt (total (ι := ι) []) := by simp [total]
  cases hstep with
  | @gauge w l js r change next since =>
    have htotal : total (counts [(.gauge r change : Event β)]) = change.amount := by
      simp [total, counts, Event.count?]
    rw [htotal]
    rcases change with _ | _ | n
    · rfl
    · exact Int64.sub_eq_add_neg w.gauge 1
    · exact absurd rfl (hassign (r, .assign n) (by simp [counts, Event.count?]) n)
  | store hanswer =>
    cases hanswer with
    | performs => exact hnone _
    | fails e => exact hnone _
  | cache hanswer =>
    cases hanswer with
    | performs => exact hnone _
    | fails e => exact hnone _
  | starts w jobs r => exact hnone _
  | waits wall hforward hcut => exact hnone _
  | ends => exact hnone _
  | drops j => exact hnone _

/-- The counts tell the gauge, unless it has been overwritten. -/
theorem gauge_run {p₀ : Pool β} (hrun : Runs program c allowed p₀ trace p)
    (hassign : ∀ entry ∈ counts trace, ∀ n, entry.2 ≠ .assign n) :
    p.world.gauge = p₀.world.gauge + Int64.ofInt (total (counts trace)) := by
  induction hrun with
  | nil => simp [total, counts]
  | @snoc trace q q' e hrun hallowed hstep ih =>
    rw [counts_snoc] at hassign
    have hbefore := ih fun entry hmem => hassign entry (List.mem_append_left _ hmem)
    have hnow := gauge_step hstep fun entry hmem => hassign entry (List.mem_append_right _ hmem)
    have htotal : total (counts trace ++ counts [e])
        = total (counts trace) + total (counts [e]) := by
      simp [total]
    rw [hnow, hbefore, counts_snoc, htotal, Int64.ofInt_add, Int64.add_assoc]

/-! ## One caller -/

/-- A caller has counted what it has committed, up to one change that it still owes. When it has
ended it owes nothing. -/
structure Entered (r : ι) (committed counted : List (ι × GaugeChange)) (ended : Prop) : Prop where
  once : committed.length ≤ 1
  entries : ∃ k, committed = counted ++ owed r k ∧ (ended → k = 0)

theorem entered_course {events : List (Event β)} {left : Option (Operation (β r))}
    (hpays : Pays good 0 (program r)) (h : Course program r events left) :
    Entered r (commits events) (counts events) (left = none ∧ Event.drops r ∉ events) := by
  cases h with
  | waiting => exact ⟨Nat.zero_le _, 0, rfl, fun _ => rfl⟩
  | underWay hfollows =>
    obtain ⟨k, -, hentries, hlength⟩ := entries_follows hpays hfollows
    exact ⟨hlength, k, hentries, fun hover => by cases hover.1⟩
  | @ended events value hfollows =>
    obtain ⟨k, hleft, hentries, hlength⟩ := entries_follows hpays hfollows
    have hcommits : commits (.starts r :: events ++ [.ends r value]) = commits events :=
      filterMap_between rfl rfl events
    have hcounts : counts (.starts r :: events ++ [.ends r value]) = counts events :=
      filterMap_between rfl rfl events
    rw [hcommits, hcounts]
    refine ⟨hlength, k, hentries, fun _ => ?_⟩
    cases hleft
    rfl
  | @dropped events left hfollows =>
    obtain ⟨k, -, hentries, hlength⟩ := entries_follows hpays hfollows
    have hcommits : commits (.starts r :: events ++ [.drops r]) = commits events :=
      filterMap_between rfl rfl events
    have hcounts : counts (.starts r :: events ++ [.drops r]) = counts events :=
      filterMap_between rfl rfl events
    rw [hcommits, hcounts]
    exact ⟨hlength, k, hentries, fun hover => absurd (by simp) hover.2⟩

theorem commits_course {events : List (Event β)} {left : Option (Operation (β r))}
    (hreads : Reads (program r)) (h : Course program r events left) : commits events = [] := by
  cases h with
  | waiting => rfl
  | @underWay events left hfollows =>
    have hnone : commits events = [] := commits_of_reads hreads hfollows
    exact hnone
  | ended hfollows => exact (filterMap_between rfl rfl _).trans (commits_of_reads hreads hfollows)
  | dropped hfollows => exact (filterMap_between rfl rfl _).trans (commits_of_reads hreads hfollows)

variable [DecidableEq ι]

/-- The entries of a caller. -/
def ofCaller (r : ι) (entries : List (ι × GaugeChange)) : List (ι × GaugeChange) :=
  entries.filter fun entry => entry.1 = r

theorem ofCaller_filterMap {f : Event β → Option (ι × GaugeChange)}
    (hf : ∀ e entry, f e = some entry → e.caller? = some entry.1) (r : ι)
    (trace : List (Event β)) : ofCaller r (trace.filterMap f) = (own r trace).filterMap f := by
  unfold ofCaller own
  induction trace with
  | nil => rfl
  | cons e trace ih =>
    cases hentry : f e with
    | none =>
      by_cases hcaller : e.caller? = some r <;> simp [hentry, hcaller, ih]
    | some entry =>
      have hcaller := hf e entry hentry
      by_cases hr : entry.1 = r <;> simp [hentry, hcaller, hr, ih]

theorem ofCaller_commits (r : ι) (trace : List (Event β)) :
    ofCaller r (commits trace) = commits (own r trace) := by
  refine ofCaller_filterMap ?_ r trace
  intro e entry hentry
  cases e with
  | store s call reply time =>
    obtain ⟨change, -, rfl⟩ := Option.map_eq_some_iff.1 hentry
    rfl
  | _ => cases hentry

theorem ofCaller_counts (r : ι) (trace : List (Event β)) :
    ofCaller r (counts trace) = counts (own r trace) := by
  refine ofCaller_filterMap ?_ r trace
  intro e entry hentry
  cases e with
  | gauge s change =>
    cases hentry
    rfl
  | _ => cases hentry

/-- In every interleaving. -/
theorem entered_run (hpays : Pays good 0 (program r)) (h : Courses program trace p) :
    Entered r (ofCaller r (commits trace)) (ofCaller r (counts trace))
      ((∀ j ∈ p.jobs, j.request ≠ r) ∧ Event.drops r ∉ trace) := by
  rw [ofCaller_commits, ofCaller_counts]
  by_cases hbusy : ∃ j ∈ p.jobs, j.request = r
  · obtain ⟨j, hj, rfl⟩ := hbusy
    obtain ⟨honce, k, hentries, -⟩ := entered_course hpays (h.underWay j hj)
    exact ⟨honce, k, hentries, fun hover => absurd rfl (hover.1 j hj)⟩
  · have habsent : ∀ j ∈ p.jobs, j.request ≠ r := fun j hj hr => hbusy ⟨j, hj, hr⟩
    obtain ⟨honce, k, hentries, hover⟩ := entered_course hpays (h.absent r habsent)
    refine ⟨honce, k, hentries, ?_⟩
    rintro ⟨-, hdrops⟩
    exact hover ⟨rfl, fun hmem => hdrops (mem_own.1 hmem).1⟩

theorem commits_of_reader (hreads : Reads (program r)) (h : Courses program trace p) :
    ofCaller r (commits trace) = [] := by
  rw [ofCaller_commits]
  by_cases hbusy : ∃ j ∈ p.jobs, j.request = r
  · obtain ⟨j, hj, rfl⟩ := hbusy
    exact commits_course hreads (h.underWay j hj)
  · exact commits_course hreads (h.absent r fun j hj hr => hbusy ⟨j, hj, hr⟩)

/-! ## Everybody -/

/-- The creates or deletes that have been committed and not counted yet. -/
def uncounted (change : GaugeChange) (trace : List (Event β)) : Nat :=
  (commits trace).countP fun entry => entry.2 = change ∧ entry ∉ counts trace

section Entries

variable {committed counted : List (ι × GaugeChange)}
  (hentered : ∀ r, ∃ ended, Entered r (ofCaller r committed) (ofCaller r counted) ended)

include hentered

theorem mem_committed {entry : ι × GaugeChange} (h : entry ∈ counted) : entry ∈ committed := by
  obtain ⟨ended, -, k, hentries, -⟩ := hentered entry.1
  have hmem : entry ∈ ofCaller entry.1 counted := by simp [ofCaller, h]
  have hboth : entry ∈ ofCaller entry.1 committed := by
    rw [hentries]
    exact List.mem_append_left _ hmem
  exact (List.mem_filter.1 hboth).1

theorem nodup_committed : committed.Nodup := by
  refine List.nodup_iff_count_le_one.2 fun entry => ?_
  obtain ⟨ended, honce, -⟩ := hentered entry.1
  refine Nat.le_trans ?_ honce
  rw [ofCaller, ← List.countP_eq_length_filter]
  exact List.countP_mono_left fun other _ heq => by simp_all

theorem nodup_counted : counted.Nodup := by
  refine List.nodup_iff_count_le_one.2 fun entry => ?_
  obtain ⟨ended, honce, k, hentries, -⟩ := hentered entry.1
  rw [hentries, List.length_append] at honce
  have hcounted : (ofCaller entry.1 counted).length ≤ 1 := by omega
  refine Nat.le_trans ?_ hcounted
  rw [ofCaller, ← List.countP_eq_length_filter]
  exact List.countP_mono_left fun other _ heq => by simp_all

/-- The commits that have been counted are the counts. -/
theorem counted_perm : (committed.filter fun entry => entry ∈ counted).Perm counted := by
  have hnodup := (nodup_committed hentered).filter fun entry => decide (entry ∈ counted)
  refine (List.perm_ext_iff_of_nodup hnodup (nodup_counted hentered)).2 fun entry => ?_
  have hmem : entry ∈ counted → entry ∈ committed := mem_committed hentered
  simpa [List.mem_filter] using hmem

/-- What has been committed and not counted is what the commits come to more than the counts. -/
theorem total_uncounted :
    total committed = total counted + total (committed.filter fun entry => entry ∉ counted) := by
  have hsplit := (List.filter_append_perm (fun entry => decide (entry ∈ counted)) committed).map
    fun entry => entry.2.amount
  have hcounted := (counted_perm hentered).map fun entry => entry.2.amount
  have hsum := hsplit.sum_eq
  rw [List.map_append, List.sum_append, hcounted.sum_eq] at hsum
  simp only [total, ← hsum, decide_not]

end Entries

theorem uncounted_eq (change : GaugeChange) :
    uncounted change trace = ((commits trace).filter fun entry => entry ∉ counts trace).countP
      fun entry => entry.2 = change := by
  simp [uncounted, List.countP_filter]

variable {w : World} (hpays : ∀ r, Pays (fun _ => True) 0 (program r)) (honce : StartedOnce trace)
  (hrun : Runs program c allowed ⟨w, []⟩ trace p)

include hpays honce hrun

/-- The gauge and the number of stored tasks differ by what has been committed and not counted. -/
theorem balance_run :
    p.world.gauge - w.gauge = Int64.ofInt ((p.world.table.size : Int) - w.table.size
      - uncounted .increment trace + uncounted .decrement trace) := by
  have hcourses : Courses program trace p := courses_run honce hrun
  have hentered : ∀ r, ∃ ended,
      Entered r (ofCaller r (commits trace)) (ofCaller r (counts trace)) ended :=
    fun r => ⟨_, entered_run (hpays r) hcourses⟩
  have hgauge := gauge_run hrun fun entry hmem => commits_ne_assign (mem_committed hentered hmem)
  have hsize := size_run hrun
  have hsplit := total_uncounted hentered
  have hopen : total ((commits trace).filter fun entry => entry ∉ counts trace)
      = uncounted .increment trace - uncounted .decrement trace := by
    rw [uncounted_eq, uncounted_eq]
    exact total_eq fun entry hmem => commits_ne_assign (List.mem_filter.1 hmem).1
  have hcounted : total (counts trace) = (p.world.table.size : Int) - w.table.size
      - uncounted .increment trace + uncounted .decrement trace := by
    simp only at hsize
    omega
  rw [← hcounted, hgauge]
  simp only
  grind

/-- A commit that has not been counted is that of an operation under way, or of a dropped one. -/
theorem underWay_of_uncounted {entry : ι × GaugeChange} (hcommit : entry ∈ commits trace)
    (hcount : entry ∉ counts trace) :
    (∃ j ∈ p.jobs, j.request = entry.1) ∨ Event.drops entry.1 ∈ trace := by
  have hcourses : Courses program trace p := courses_run honce hrun
  obtain ⟨-, k, hentries, hover⟩ := entered_run (hpays entry.1) hcourses
  by_contra hgone
  rw [not_or] at hgone
  have hk : k = 0 := hover ⟨fun j hj heq => hgone.1 ⟨j, hj, heq⟩, hgone.2⟩
  rw [hk, owed_zero, List.append_nil] at hentries
  have hmem : entry ∈ ofCaller entry.1 (commits trace) := by simp [ofCaller, hcommit]
  rw [hentries] at hmem
  exact hcount (List.mem_filter.1 hmem).1

end Run

end TaskBoard
