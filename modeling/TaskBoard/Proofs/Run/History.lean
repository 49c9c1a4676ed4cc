import TaskBoard.Proofs.Run.Pool

/-!
# What a trace tells of one caller

If no caller begins twice, the events of one caller are the course of its operation: it begins, its
calls are answered one after the other, and it ends with what is left then or is dropped on the way.

* `Follows`: the calls of an operation with their answers, and what is left of it;
* `Course`: all that is seen of one caller;
* `courses_run`: in every interleaving every caller has its course.
-/

namespace TaskBoard.Run

variable {ι : Type} {β : ι → Type}

/-! ## Callers -/

/-- Whom an event is about. -/
def Event.caller? : Event β → Option ι
  | .starts r | .store r _ _ _ | .cache r _ _ _ _ | .gauge r _ | .ends r _ | .drops r => some r
  | .waits _ _ => none

/-- Who begins. -/
def Event.beginner? : Event β → Option ι
  | .starts r => some r
  | _ => none

/-- No caller begins twice. -/
def StartedOnce (trace : List (Event β)) : Prop := (trace.filterMap Event.beginner?).Nodup

instance [DecidableEq ι] (trace : List (Event β)) : Decidable (StartedOnce trace) :=
  inferInstanceAs (Decidable (List.Nodup _))

theorem StartedOnce.of_append {trace trace' : List (Event β)}
    (h : StartedOnce (trace ++ trace')) : StartedOnce trace := by
  unfold StartedOnce at h ⊢
  rw [List.filterMap_append] at h
  exact (List.nodup_append.1 h).1

/-- Who begins has not begun before. -/
theorem StartedOnce.not_mem {trace : List (Event β)} {r : ι}
    (h : StartedOnce (trace ++ [Event.starts r])) : Event.starts r ∉ trace := by
  intro hmem
  have hbefore : r ∈ trace.filterMap Event.beginner? := List.mem_filterMap.2 ⟨_, hmem, rfl⟩
  unfold StartedOnce at h
  rw [List.filterMap_append] at h
  exact (List.nodup_append.1 h).2.2 r hbefore r (by simp [Event.beginner?]) rfl

/-! ## The course of an operation -/

/-- Through its calls and their answers an operation comes to what is left of it. -/
inductive Follows (r : ι) : Operation (β r) → List (Event β) → Operation (β r) → Prop where
  | refl (op : Operation (β r)) : Follows r op [] op
  | store {call : StoreCall} {next : call.Reply → Operation (β r)} {reply : call.Reply}
      {time : Nat} {events : List (Event β)} {left : Operation (β r)}
      (h : Follows r (next reply) events left) :
      Follows r (.store call next) (.store r call reply time :: events) left
  | cache {limit : Nat} {call : CacheCall} {next : call.Reply → Operation (β r)}
      {reply : call.Reply} {time : Nat} {events : List (Event β)} {left : Operation (β r)}
      (h : Follows r (next reply) events left) :
      Follows r (.cache limit call next) (.cache r call reply time (next reply) :: events) left
  | gauge {change : GaugeChange} {next : Operation (β r)} {events : List (Event β)}
      {left : Operation (β r)} (h : Follows r next events left) :
      Follows r (.gauge change next) (.gauge r change :: events) left

theorem Follows.trans {r : ι} {op op' op'' : Operation (β r)} {events events' : List (Event β)}
    (h : Follows r op events op') (h' : Follows r op' events' op'') :
    Follows r op (events ++ events') op'' := by
  induction h with
  | refl op => exact h'
  | store _ ih => exact .store (ih h')
  | cache _ ih => exact .cache (ih h')
  | gauge _ ih => exact .gauge (ih h')

/-- An operation that waits for a store call still does, or has been answered. -/
theorem Follows.of_store {r : ι} {call : StoreCall} {next : call.Reply → Operation (β r)}
    {answers : List (Event β)} {left : Operation (β r)}
    (h : Follows r (.store call next) answers left) :
    (answers = [] ∧ left = .store call next)
      ∨ ∃ reply time rest, answers = .store r call reply time :: rest
        ∧ Follows r (next reply) rest left := by
  cases h with
  | refl => exact Or.inl ⟨rfl, rfl⟩
  | store h => exact Or.inr ⟨_, _, _, rfl, h⟩

theorem Follows.of_done {r : ι} {value : β r} {answers : List (Event β)} {left : Operation (β r)}
    (h : Follows r (.done value) answers left) : answers = [] ∧ left = .done value := by
  cases h with
  | refl => exact ⟨rfl, rfl⟩

theorem Follows.of_gauge {r : ι} {change : GaugeChange} {next : Operation (β r)}
    {answers : List (Event β)} {left : Operation (β r)}
    (h : Follows r (.gauge change next) answers left) :
    (answers = [] ∧ left = .gauge change next)
      ∨ ∃ rest, answers = .gauge r change :: rest ∧ Follows r next rest left := by
  cases h with
  | refl => exact Or.inl ⟨rfl, rfl⟩
  | gauge h => exact Or.inr ⟨_, rfl, h⟩

/-- Whether an event is the answer to a call, or a change of the gauge. -/
def Event.isAnswer : Event β → Bool
  | .store .. | .cache .. | .gauge .. => true
  | _ => false

theorem Follows.isAnswer {r : ι} {op left : Operation (β r)} {events : List (Event β)}
    (h : Follows r op events left) : ∀ e ∈ events, e.isAnswer = true := by
  induction h with
  | refl op => simp
  | store _ ih => exact List.forall_mem_cons.2 ⟨rfl, ih⟩
  | cache _ ih => exact List.forall_mem_cons.2 ⟨rfl, ih⟩
  | gauge _ ih => exact List.forall_mem_cons.2 ⟨rfl, ih⟩

/-- An operation that asks the store for nothing but what `P` holds of. -/
inductive Asks {α : Type} (P : StoreCall → Prop) : Operation α → Prop where
  | done (a : α) : Asks P (.done a)
  | store {call : StoreCall} {next : call.Reply → Operation α} (hcall : P call)
      (hnext : ∀ reply, Asks P (next reply)) : Asks P (.store call next)
  | cache {limit : Nat} {call : CacheCall} {next : call.Reply → Operation α}
      (hnext : ∀ reply, Asks P (next reply)) : Asks P (.cache limit call next)
  | gauge {change : GaugeChange} {next : Operation α} (hnext : Asks P next) :
      Asks P (.gauge change next)

theorem Asks.bind {α α' : Type} {P : StoreCall → Prop} {op : Operation α} {f : α → Operation α'}
    (h : Asks P op) (hf : ∀ a, Asks P (f a)) : Asks P (op.bind f) := by
  induction h with
  | done a => exact hf a
  | store hcall _ ih => exact .store hcall ih
  | cache _ ih => exact .cache ih
  | gauge _ ih => exact .gauge ih

theorem Asks.map {α α' : Type} {P : StoreCall → Prop} {op : Operation α} (f : α → α')
    (h : Asks P op) : Asks P (op.map f) :=
  h.bind fun a => .done (f a)

/-- What an operation has asked for and what it may still ask for. -/
theorem Follows.asks {r : ι} {op left : Operation (β r)} {events : List (Event β)}
    {P : StoreCall → Prop} (h : Follows r op events left) (hasks : Asks P op) :
    Asks P left ∧ ∀ s call reply time, Event.store s call reply time ∈ events → P call := by
  induction h with
  | refl op => exact ⟨hasks, by simp⟩
  | store _ ih =>
    cases hasks with
    | store hcall hnext =>
      obtain ⟨hleft, hevents⟩ := ih (hnext _)
      refine ⟨hleft, ?_⟩
      intro s call reply time hmem
      rcases List.mem_cons.1 hmem with heq | hmem
      · cases heq
        exact hcall
      · exact hevents s call reply time hmem
  | cache _ ih =>
    cases hasks with
    | cache hnext =>
      obtain ⟨hleft, hevents⟩ := ih (hnext _)
      exact ⟨hleft, fun s call reply time hmem => hevents s call reply time (by simpa using hmem)⟩
  | gauge _ ih =>
    cases hasks with
    | gauge hnext =>
      obtain ⟨hleft, hevents⟩ := ih hnext
      exact ⟨hleft, fun s call reply time hmem => hevents s call reply time (by simpa using hmem)⟩

/-- All that is seen of a caller, and what is left of its operation if it is under way. -/
inductive Course (program : (r : ι) → Operation (β r)) (r : ι) :
    List (Event β) → Option (Operation (β r)) → Prop where
  | waiting : Course program r [] none
  | underWay {events : List (Event β)} {left : Operation (β r)}
      (h : Follows r (program r) events left) :
      Course program r (.starts r :: events) (some left)
  | ended {events : List (Event β)} {value : β r}
      (h : Follows r (program r) events (.done value)) :
      Course program r (.starts r :: events ++ [.ends r value]) none
  | dropped {events : List (Event β)} {left : Operation (β r)}
      (h : Follows r (program r) events left) :
      Course program r (.starts r :: events ++ [.drops r]) none

variable {program : (r : ι) → Operation (β r)} {r : ι}

/-- An operation under way that comes further. -/
theorem Course.goOn {events events' : List (Event β)} {left left' : Operation (β r)}
    (h : Course program r events (some left)) (hfollows : Follows r left events' left') :
    Course program r (events ++ events') (some left') := by
  cases h with
  | underWay h => exact .underWay (h.trans hfollows)

/-- An operation that has nothing left to do may end. -/
theorem Course.ends {events : List (Event β)} {value : β r}
    (h : Course program r events (some (.done value))) :
    Course program r (events ++ [.ends r value]) none := by
  cases h with
  | underWay h => exact .ended h

theorem Course.drops {events : List (Event β)} {left : Operation (β r)}
    (h : Course program r events (some left)) : Course program r (events ++ [.drops r]) none := by
  cases h with
  | underWay h => exact .dropped h

/-- Who has not begun is not under way. -/
theorem Course.fresh {events : List (Event β)} {left : Option (Operation (β r))}
    (h : Course program r events left) (hstarts : Event.starts r ∉ events) :
    events = [] ∧ left = none := by
  cases h with
  | waiting => exact ⟨rfl, rfl⟩
  | underWay h => exact absurd List.mem_cons_self hstarts
  | ended h => exact absurd List.mem_cons_self hstarts
  | dropped h => exact absurd List.mem_cons_self hstarts

/-- The answers that a caller has been given are those that its operation follows. -/
theorem Course.follows {events : List (Event β)} {left : Option (Operation (β r))}
    (h : Course program r events left) :
    ∃ answers left', Follows r (program r) answers left'
      ∧ ∀ e, e.isAnswer = true → (e ∈ events ↔ e ∈ answers) := by
  cases h with
  | waiting => exact ⟨[], _, .refl _, fun e _ => Iff.rfl⟩
  | underWay hfollows =>
    refine ⟨_, _, hfollows, fun e he => ?_⟩
    cases e <;> simp_all [Event.isAnswer]
  | ended hfollows =>
    refine ⟨_, _, hfollows, fun e he => ?_⟩
    cases e <;> simp_all [Event.isAnswer]
  | dropped hfollows =>
    refine ⟨_, _, hfollows, fun e he => ?_⟩
    cases e <;> simp_all [Event.isAnswer]

/-- The answers that an operation under way has been given lead to what is left of it. -/
theorem Course.of_underWay {events : List (Event β)} {left : Operation (β r)}
    (h : Course program r events (some left)) :
    ∃ answers, Follows r (program r) answers left
      ∧ ∀ e, e.isAnswer = true → (e ∈ events ↔ e ∈ answers) := by
  cases h with
  | underWay hfollows =>
    refine ⟨_, hfollows, fun e he => ?_⟩
    cases e <;> simp_all [Event.isAnswer]

/-- Who has ended has had nothing left to do. -/
theorem Course.of_ends {events : List (Event β)} {left : Option (Operation (β r))} {value : β r}
    (h : Course program r events left) (hmem : Event.ends r value ∈ events) :
    ∃ answers, Follows r (program r) answers (.done value)
      ∧ ∀ e, e.isAnswer = true → (e ∈ events ↔ e ∈ answers) := by
  have hanswer : ∀ {answers : List (Event β)} {left : Operation (β r)},
      Follows r (program r) answers left → Event.ends r value ∉ answers := by
    intro answers left hfollows hin
    cases hfollows.isAnswer _ hin
  obtain ⟨answers, left', hfollows, hanswers⟩ := h.follows
  cases h with
  | waiting => cases hmem
  | underWay hfollows' => exact absurd (by simpa using hmem) (hanswer hfollows')
  | @ended events value' hfollows' =>
    have hvalue : value = value' := by
      have hlast := hanswer hfollows'
      simpa [hlast] using hmem
    subst hvalue
    refine ⟨events, hfollows', fun e he => ?_⟩
    cases e <;> simp_all [Event.isAnswer]
  | dropped hfollows' =>
    have hlast := hanswer hfollows'
    simp [hlast] at hmem

/-! ## The events of a caller -/

variable [DecidableEq ι]

/-- What is seen of a caller. -/
def own (r : ι) (trace : List (Event β)) : List (Event β) :=
  trace.filter fun e => e.caller? = some r

variable {trace : List (Event β)} {e : Event β} {c : Conditions}
  {allowed : Pool β → Event β → Prop} {p p' : Pool β}

theorem mem_own : e ∈ own r trace ↔ e ∈ trace ∧ e.caller? = some r := by
  simp [own]

theorem own_snoc (h : e.caller? = some r) : own r (trace ++ [e]) = own r trace ++ [e] := by
  simp [own, h]

theorem own_snoc_other (h : e.caller? ≠ some r) : own r (trace ++ [e]) = own r trace := by
  simp [own, h]

/-- Every caller has its course. -/
structure Courses (program : (r : ι) → Operation (β r)) (trace : List (Event β)) (p : Pool β) :
    Prop where
  callers : (p.jobs.map Job.request).Nodup
  underWay : ∀ j ∈ p.jobs, Course program j.request (own j.request trace) (some j.left)
  absent : ∀ r, (∀ j ∈ p.jobs, j.request ≠ r) → Course program r (own r trace) none

/-! ## Every step goes on with a course -/

/-- An event of somebody else. -/
theorem Course.other {events : Option (Operation (β r))}
    (h : Course program r (own r trace) events) (he : e.caller? ≠ some r) :
    Course program r (own r (trace ++ [e])) events := by
  rw [own_snoc_other he]
  exact h

/-- The step of a caller that is under way before and after. -/
theorem Courses.replace {w w' : World} {l js : List (Job β)} {left left' : Operation (β r)}
    {since since' : Nat} (h : Courses program trace ⟨w, l ++ ⟨r, left, since⟩ :: js⟩)
    (he : e.caller? = some r) (hfollows : Follows r left [e] left') :
    Courses program (trace ++ [e]) ⟨w', l ++ ⟨r, left', since'⟩ :: js⟩ where
  callers := by simpa using h.callers
  underWay := by
    refine forall_mem_replace h.underWay ?_ ?_
    · intro i hi hcourse
      have hne : i.request ≠ r := request_ne h.callers i hi
      refine hcourse.other ?_
      rw [he]
      exact fun heq => hne (Option.some.inj heq).symm
    · have hcourse := h.underWay ⟨r, left, since⟩ (by simp)
      rw [own_snoc he]
      exact hcourse.goOn hfollows
  absent := by
    intro s hs
    have hne : r ≠ s := hs ⟨r, left', since'⟩ (by simp)
    refine (h.absent s ?_).other ?_
    · refine forall_mem_replace hs (fun i hi hne => hne) ?_
      exact hne
    · rw [he]
      exact fun heq => hne (Option.some.inj heq)

/-- The step of a caller that is gone after it. -/
theorem Courses.remove {w : World} {l js : List (Job β)} {j : Job β}
    (h : Courses program trace ⟨w, l ++ j :: js⟩) (he : e.caller? = some j.request)
    (hover : Course program j.request (own j.request trace ++ [e]) none) :
    Courses program (trace ++ [e]) ⟨w, l ++ js⟩ where
  callers := callers_remove h.callers
  underWay := by
    intro i hi
    have hne : i.request ≠ j.request := request_ne h.callers i hi
    refine (forall_mem_remove h.underWay i hi).other ?_
    rw [he]
    exact fun heq => hne (Option.some.inj heq).symm
  absent := by
    intro s hs
    by_cases hsame : j.request = s
    · rw [← hsame, own_snoc he]
      exact hover
    · refine (h.absent s ?_).other ?_
      · intro i hi
        rcases List.mem_append.1 hi with hl | hjs
        · exact hs i (List.mem_append_left _ hl)
        · rcases List.mem_cons.1 hjs with rfl | hjs
          · exact hsame
          · exact hs i (List.mem_append_right _ hjs)
      · rw [he]
        exact fun heq => hsame (Option.some.inj heq)

theorem courses_step (h : Courses program trace p) (honce : StartedOnce (trace ++ [e]))
    (hstep : Step program c p e p') : Courses program (trace ++ [e]) p' := by
  cases hstep with
  | starts w jobs r =>
    have hfresh : Event.starts r ∉ own r trace := fun hmem => honce.not_mem (mem_own.1 hmem).1
    have hidle : ∀ j ∈ jobs, j.request ≠ r := by
      rintro j hj rfl
      cases ((h.underWay j hj).fresh hfresh).2
    have hnone : own r trace = [] := ((h.absent r hidle).fresh hfresh).1
    refine ⟨?_, ?_, ?_⟩
    · refine List.nodup_cons.2 ⟨?_, h.callers⟩
      intro hmem
      obtain ⟨j, hj, hrequest⟩ := List.mem_map.1 hmem
      exact hidle j hj hrequest
    · intro j hj
      rcases List.mem_cons.1 hj with rfl | hj
      · rw [own_snoc rfl, hnone]
        exact .underWay (.refl _)
      · exact (h.underWay j hj).other fun heq => hidle j hj (Option.some.inj heq).symm
    · intro s hs
      have hne : r ≠ s := hs ⟨r, program r, w.timer⟩ List.mem_cons_self
      exact (h.absent s fun j hj => hs j (List.mem_cons_of_mem _ hj)).other
        fun heq => hne (Option.some.inj heq)
  | waits wall hforward hcut =>
    refine ⟨h.callers, ?_, ?_⟩
    · intro j hj
      exact (h.underWay j hj).other (by simp [Event.caller?])
    · intro r hr
      exact (h.absent r hr).other (by simp [Event.caller?])
  | store hanswer => exact h.replace rfl (.store (.refl _))
  | cache hanswer => exact h.replace rfl (.cache (.refl _))
  | gauge => exact h.replace rfl (.gauge (.refl _))
  | @ends w l js r value since =>
    refine h.remove (j := ⟨r, .done value, since⟩) rfl ?_
    exact (h.underWay ⟨r, .done value, since⟩ (by simp)).ends
  | drops j => exact h.remove rfl (h.underWay j (by simp)).drops

/-- In every interleaving every caller has its course. -/
theorem courses_run {w : World} (honce : StartedOnce trace)
    (hrun : Runs program c allowed ⟨w, []⟩ trace p) : Courses program trace p := by
  induction hrun with
  | nil => exact ⟨List.nodup_nil, by simp, fun r _ => .waiting⟩
  | snoc hrun hallowed hstep ih => exact courses_step (ih honce.of_append) honce hstep

/-! ## What a course tells -/

namespace Courses

variable {call : StoreCall} {reply : call.Reply} {time : Nat} {value : β r}

theorem course (h : Courses program trace p) (r : ι) :
    ∃ left, Course program r (own r trace) left := by
  by_cases hbusy : ∃ j ∈ p.jobs, j.request = r
  · obtain ⟨j, hj, rfl⟩ := hbusy
    exact ⟨_, h.underWay j hj⟩
  · exact ⟨none, h.absent r fun j hj hr => hbusy ⟨j, hj, hr⟩⟩

theorem of_job (h : Courses program trace p) {j : Job β} (hj : j ∈ p.jobs) :
    ∃ answers, Follows j.request (program j.request) answers j.left
      ∧ ∀ e, e.isAnswer = true → (e ∈ own j.request trace ↔ e ∈ answers) :=
  (h.underWay j hj).of_underWay

/-- An operation asks for what it may ask for. -/
theorem of_store (h : Courses program trace p) {P : StoreCall → Prop} (hasks : Asks P (program r))
    (hmem : Event.store r call reply time ∈ trace) : P call := by
  obtain ⟨left, hcourse⟩ := h.course r
  obtain ⟨answers, left', hfollows, hanswers⟩ := hcourse.follows
  have hown : Event.store r call reply time ∈ own r trace := mem_own.2 ⟨hmem, rfl⟩
  exact (hfollows.asks hasks).2 r call reply time ((hanswers _ rfl).1 hown)

/-- Who has ended has had nothing left to do. -/
theorem of_ends (h : Courses program trace p) (hmem : Event.ends r value ∈ trace) :
    ∃ answers, Follows r (program r) answers (.done value)
      ∧ ∀ e, e.isAnswer = true → (e ∈ own r trace ↔ e ∈ answers) := by
  obtain ⟨left, hcourse⟩ := h.course r
  exact hcourse.of_ends (mem_own.2 ⟨hmem, rfl⟩)

/-- Nothing is seen of a caller before it begins. -/
theorem begun (h : Courses program trace p) (hmem : e ∈ own r trace) :
    Event.starts r ∈ trace := by
  obtain ⟨left, hcourse⟩ := h.course r
  refine Classical.byContradiction fun hstarts => ?_
  have hnone := (hcourse.fresh fun hown => hstarts (mem_own.1 hown).1).1
  rw [hnone] at hmem
  cases hmem

/-- Who has begun and is not under way has ended or been dropped. -/
theorem ended_or_dropped (h : Courses program trace p) (hbegun : own r trace ≠ [])
    (hidle : ∀ j ∈ p.jobs, j.request ≠ r) :
    (∃ value, Event.ends r value ∈ trace) ∨ Event.drops r ∈ trace := by
  have hcourse := h.absent r hidle
  have hmem : ∀ e ∈ own r trace, e ∈ trace := fun e he => (mem_own.1 he).1
  generalize own r trace = events at hcourse hbegun hmem
  cases hcourse with
  | waiting => exact absurd rfl hbegun
  | @ended events value hfollows => exact Or.inl ⟨value, hmem _ (by simp)⟩
  | dropped hfollows => exact Or.inr (hmem _ (by simp))

end Courses

end TaskBoard.Run
