import TaskBoard.Proofs.Run.Account

/-!
# What a page and its count come to

While only these two run the stored tasks stay as they are. So whichever side is looked at first,
whatever each waits for and wherever the other is by then, the result is put together from what the
stored tasks make of each side, or it is the failure of one of them.

* `Finds`: an operation on stored tasks that nobody changes;
* `looked_lookAtCount`, `awaited_waitForPage`: what one look at the count and one wait come to;
* `ends_runPage`: what a page and its count come to, by induction on the page;
* `joint_of_pair`, `exists_of_pair`: the value of a pair, which is there if there is no deadline;
* `sameTasks_pair`: what a pair leaves as it is.
-/

namespace TaskBoard.Run

variable {c : Conditions} {t : Table} {filter : Filter} {deadline : Option Nat}

/-- An answer of a store that holds the tasks of `t`: the failure that some call meets, or what the
tasks make of the call. -/
inductive Answered (c : Conditions) (t : Table) (call : StoreCall) : call.Reply → Prop where
  | fails {n : Nat} {detail : String} (hfails : (c.store n call).failure = some detail) :
      Answered c t call (.error (.persistence detail))
  | performs (now : Instant) (freshId : String) :
      Answered c t call (Table.perform now freshId call t).1

theorem answered_endStore {call : StoreCall} {w : World} {failure : Option String}
    (hw : w.table = t) (hfate : ∃ n, (c.store n call).failure = failure) :
    Answered c t call (w.endStore c call failure).1 := by
  obtain ⟨n, hn⟩ := hfate
  cases failure with
  | some detail => exact .fails hn
  | none =>
    have hperforms : Answered c w.table call (w.performStore c call).1 := .performs _ _
    rw [hw] at hperforms
    exact hperforms

/-- No store call fails. -/
def Conditions.Reliable (c : Conditions) : Prop := ∀ n call, (c.store n call).failure = none

theorem Answered.performed {call : StoreCall} {reply : call.Reply}
    (h : Answered c t call reply) (hc : c.Reliable) :
    ∃ now freshId, reply = (Table.perform now freshId call t).1 := by
  cases h with
  | fails hfails =>
    rw [hc] at hfails
    cases hfails
  | performs now freshId => exact ⟨now, freshId, rfl⟩

/-- The only error is that of the store. -/
def OnlyPersistence {α : Type} (result : Except TaskError α) : Prop :=
  ∀ e, result = .error e → ∃ detail, e = .persistence detail

theorem OnlyPersistence.ok {α : Type} (a : α) : OnlyPersistence (.ok a) := by
  intro e he
  cases he

/-- A call that can always be performed fails with the store only. -/
theorem Answered.onlyPersistence {call : StoreCall} {reply : call.Reply}
    (h : Answered c t call reply)
    (hcall : ∀ now freshId, ∃ a, (Table.perform now freshId call t).1 = .ok a) :
    OnlyPersistence reply := by
  intro e he
  cases h with
  | fails hfails => exact ⟨_, (Except.error.inj he).symm⟩
  | performs now freshId =>
    obtain ⟨a, ha⟩ := hcall now freshId
    rw [ha] at he
    cases he

/-- An operation that only reads, and ends with a value that is `good` if the store holds the tasks
of `t` all along. -/
inductive Finds {α : Type} (c : Conditions) (t : Table) (good : α → Prop) : Operation α → Prop where
  | done {a : α} (hgood : good a) : Finds c t good (.done a)
  | store {call : StoreCall} {next : call.Reply → Operation α} (hcall : call.writes = false)
      (hnext : ∀ reply, Answered c t call reply → Finds c t good (next reply)) :
      Finds c t good (.store call next)
  | cache {limit : Nat} {call : CacheCall} {next : call.Reply → Operation α}
      (hnext : ∀ reply, Finds c t good (next reply)) : Finds c t good (.cache limit call next)

/-! ## Looking at the count -/

/-- A state of the count that the stored tasks can lead to. -/
def Counting (c : Conditions) (t : Table) (filter : Filter) : CountState → Prop
  | .waiting => True
  | .asked _ failure => ∃ n, (c.store n (.countFiltered filter)).failure = failure
  | .counted total => Answered c t (.countFiltered filter) (.ok total)

theorem counting_waiting : Counting c t filter .waiting := trivial

/-- What a look at the count comes to: its call has been made, or has failed. -/
def Looked (c : Conditions) (t : Table) (filter : Filter) : Except TaskError CountState → Prop
  | .ok s => Counting c t filter s ∧ s ≠ .waiting
  | .error e => Answered c t (.countFiltered filter) (.error e)

theorem looked_endCount {failure : Option String} {w : World} (hw : w.table = t)
    (hfate : ∃ n, (c.store n (.countFiltered filter)).failure = failure) :
    Looked c t filter (endCount c filter failure w).1 := by
  have hanswer : Answered c t (.countFiltered filter)
      (w.endStore c (.countFiltered filter) failure).1 := answered_endStore hw hfate
  unfold endCount
  generalize w.endStore c (.countFiltered filter) failure = ended at hanswer ⊢
  obtain ⟨e | total, w'⟩ := ended
  · exact hanswer
  · exact ⟨hanswer, by simp⟩

theorem looked_lookAtCount {s : CountState} {w : World} (hw : w.table = t)
    (h : Counting c t filter s) : Looked c t filter (lookAtCount c filter s w).1 := by
  cases s with
  | waiting =>
    have hnote : (w.noteStore c (.countFiltered filter)).2.table = t := hw
    simp only [lookAtCount]
    split
    · exact looked_endCount hnote ⟨w.storeCalls.length, rfl⟩
    · exact ⟨⟨w.storeCalls.length, rfl⟩, by simp⟩
  | asked due failure =>
    simp only [lookAtCount]
    split
    · exact looked_endCount hw h
    · exact ⟨h, by simp⟩
  | counted total => exact ⟨h, by simp⟩

/-- The same, if the count may have been looked at already. -/
theorem looked_look {looked : Bool} {s : CountState} {w : World} (hw : w.table = t)
    (h : Counting c t filter s) (hlooked : looked = true → s ≠ .waiting) :
    Looked c t filter (if looked then (.ok s, w) else lookAtCount c filter s w).1 := by
  cases looked with
  | true => exact ⟨h, hlooked rfl⟩
  | false => exact looked_lookAtCount hw h

/-! ## Waiting for the page -/

/-- What a wait of the page comes to. -/
def Awaited (c : Conditions) (t : Table) (filter : Filter) (deadline : Option Nat) :
    Waited → Prop
  | .cutOff _ => deadline ≠ none
  | .failed e _ => Answered c t (.countFiltered filter) (.error e)
  | .over s _ looked _ => Counting c t filter s ∧ (looked = true → s ≠ .waiting)

/-- Only a deadline cuts a wait off. -/
theorem deadline_of_cutOff {time : Nat} {w : World} (h : (w.waitUntil deadline time).1 = false) :
    deadline ≠ none := by
  rintro rfl
  exact Bool.noConfusion h

theorem awaited_arrive {s : CountState} {w : World} (hw : w.table = t)
    (h : Counting c t filter s) (turn : Turn) :
    Awaited c t filter deadline (arrive c filter s turn w) := by
  cases turn with
  | page => exact ⟨h, fun hlooked => Bool.noConfusion hlooked⟩
  | count =>
    have hlooked : Looked c t filter (lookAtCount c filter s w).1 := looked_lookAtCount hw h
    simp only [arrive]
    generalize lookAtCount c filter s w = looks at hlooked ⊢
    obtain ⟨e | s', w'⟩ := looks
    · exact hlooked
    · exact ⟨hlooked.1, fun _ => hlooked.2⟩

/-- Waiting without the count in between. -/
theorem awaited_goOn {s : CountState} {w : World} (hw : w.table = t) (h : Counting c t filter s)
    (due : Nat) (turn : Turn) :
    Awaited c t filter deadline (match w.waitUntil deadline due with
      | (false, w) => Waited.cutOff w
      | (true, w) => arrive c filter s turn w) := by
  have hsame := World.sameHoldings_waitUntil deadline due w
  have hcut : (w.waitUntil deadline due).1 = false → deadline ≠ none := deadline_of_cutOff
  generalize w.waitUntil deadline due = waited at hsame hcut ⊢
  obtain ⟨_ | _, w'⟩ := waited
  · exact hcut rfl
  · exact awaited_arrive (hsame.1.trans hw) h turn

theorem awaited_waitForPage {s : CountState} {looked : Bool} {w : World} (hw : w.table = t)
    (h : Counting c t filter s) (hlooked : looked = true → s ≠ .waiting) (turn : Turn)
    (delay : Nat) :
    Awaited c t filter deadline (waitForPage c deadline filter s turn looked delay w) := by
  have hlook : Looked c t filter (if looked then (.ok s, w) else lookAtCount c filter s w).1 :=
    looked_look hw h hlooked
  have hsame : w.SameHoldings (if looked then (.ok s, w) else lookAtCount c filter s w).2 :=
    sameHoldings_look looked s w
  unfold waitForPage
  simp only
  generalize (if looked = true then (Except.ok s, w) else lookAtCount c filter s w) = looks
    at hlook hsame ⊢
  obtain ⟨e | s', w₁⟩ := looks
  · exact hlook
  · have hw₁ : w₁.table = t := hsame.1.trans hw
    obtain ⟨hs', -⟩ := hlook
    cases s' with
    | waiting => exact awaited_goOn hw₁ hs' _ _
    | counted total => exact awaited_goOn hw₁ hs' _ _
    | asked due failure =>
      simp only
      by_cases hdue : due < w.timer + delay
      · -- the count is due on the way
        rw [if_pos hdue]
        have hwait := World.sameHoldings_waitUntil deadline due w₁
        have hcut : (w₁.waitUntil deadline due).1 = false → deadline ≠ none := deadline_of_cutOff
        generalize w₁.waitUntil deadline due = waited at hwait hcut ⊢
        obtain ⟨_ | _, w₂⟩ := waited
        · exact hcut rfl
        · have hw₂ : w₂.table = t := hwait.1.trans hw₁
          have hended : Looked c t filter (endCount c filter failure w₂).1 :=
            looked_endCount hw₂ hs'
          have hend : w₂.SameHoldings (endCount c filter failure w₂).2 :=
            sameHoldings_endCount failure w₂
          simp only
          generalize endCount c filter failure w₂ = ended at hended hend ⊢
          obtain ⟨e | s', w₃⟩ := ended
          · exact hended
          · exact awaited_goOn (hend.1.trans hw₂) hended.1 _ _
      · rw [if_neg hdue]
        exact awaited_goOn hw₁ hs' _ _

/-! ## The two together -/

variable {good : Except TaskError (List Task) → Prop}

/-- A result of two sides: it is made of a value of each, or it is an error of one of them. -/
def Joint (page : Except TaskError (List Task) → Prop) (total : Except TaskError Int64 → Prop) :
    Except TaskError (List Task × Int64) → Prop
  | .ok (items, n) => page (.ok items) ∧ total (.ok n)
  | .error e => page (.error e) ∨ total (.error e)

/-- What a page and its count come to. Without a deadline they come to a result. -/
def Ends (c : Conditions) (t : Table) (good : Except TaskError (List Task) → Prop)
    (filter : Filter) (deadline : Option Nat) :
    Option (Except TaskError (List Task × Int64)) → Prop
  | some result => Joint good (Answered c t (.countFiltered filter)) result
  | none => deadline ≠ none

theorem ends_finishCount {items : List Task} {s : CountState} {w : World} (hw : w.table = t)
    (hitems : good (.ok items)) (h : Counting c t filter s) (hs : s ≠ .waiting) :
    Ends c t good filter deadline (finishCount c deadline filter items s w).1 := by
  cases s with
  | waiting => exact absurd rfl hs
  | counted total => exact ⟨hitems, h⟩
  | asked due failure =>
    have hwait := World.sameHoldings_waitUntil deadline due w
    have hcut : (w.waitUntil deadline due).1 = false → deadline ≠ none := deadline_of_cutOff
    simp only [finishCount]
    generalize w.waitUntil deadline due = waited at hwait hcut ⊢
    obtain ⟨_ | _, w₁⟩ := waited
    · exact hcut rfl
    · have hanswer : Answered c t (.countFiltered filter)
          (w₁.endStore c (.countFiltered filter) failure).1 :=
        answered_endStore (hwait.1.trans hw) h
      simp only
      generalize w₁.endStore c (.countFiltered filter) failure = ended at hanswer ⊢
      obtain ⟨e | total, w₂⟩ := ended
      · exact .inr hanswer
      · exact ⟨hitems, hanswer⟩

/-- What the wait of a page comes to, if the rest comes to what it should. -/
theorem ends_waited {waited : Waited} (hwaited : Awaited c t filter deadline waited)
    (hw : waited.world.table = t)
    {rest : CountState → Turn → Bool → World →
      Option (Except TaskError (List Task × Int64)) × World}
    (hrest : ∀ s turn looked w, w.table = t → Counting c t filter s →
      (looked = true → s ≠ .waiting) → Ends c t good filter deadline (rest s turn looked w).1) :
    Ends c t good filter deadline (match waited with
      | .cutOff w => ((none, w) : Option (Except TaskError (List Task × Int64)) × World)
      | .failed e w => (some (.error e), w)
      | .over s turn looked w => rest s turn looked w).1 := by
  rcases waited with w₁ | ⟨e, w₁⟩ | ⟨s, turn, looked, w₁⟩
  · exact hwaited
  · exact .inr hwaited
  · exact hrest s turn looked w₁ hw hwaited.1 hwaited.2

/-- The page decides which calls are made, and at each of them the count may be anywhere. -/
theorem ends_runPage {page : Operation (Except TaskError (List Task))} {s : CountState}
    {looked : Bool} {w : World} (h : Finds c t good page) (hw : w.table = t)
    (hs : Counting c t filter s) (hlooked : looked = true → s ≠ .waiting) (turn : Turn) :
    Ends c t good filter deadline (runPage c deadline filter page s turn looked w).1 := by
  induction h generalizing s turn looked w with
  | @done result hgood =>
    cases result with
    | error e => exact .inl hgood
    | ok items =>
      have hlook : Looked c t filter
          (if looked then (.ok s, w) else lookAtCount c filter s w).1 := looked_look hw hs hlooked
      have hsame : w.SameHoldings (if looked then (.ok s, w) else lookAtCount c filter s w).2 :=
        sameHoldings_look looked s w
      unfold runPage
      generalize (if looked = true then (Except.ok s, w) else lookAtCount c filter s w) = looks
        at hlook hsame ⊢
      obtain ⟨e | s', w₁⟩ := looks
      · exact .inr hlook
      · exact ends_finishCount (hsame.1.trans hw) hgood hlook.1 hlook.2
  | @store call next hcall hnext ih =>
    let fate := (w.noteStore c call).1
    -- the call, once its wait is over, and what comes after it
    have hrest : ∀ s turn looked (w' : World), w'.table = t → Counting c t filter s →
        (looked = true → s ≠ .waiting) → Ends c t good filter deadline
          (runPage c deadline filter (next (w'.endStore c call fate.failure).1) s turn looked
            (w'.endStore c call fate.failure).2).1 := by
      intro s turn looked w' hw' hs hlooked
      have hanswer : Answered c t call (w'.endStore c call fate.failure).1 :=
        answered_endStore hw' ⟨w.storeCalls.length, rfl⟩
      have hend := World.sameHoldings_endStore (c := c) hcall fate.failure w'
      exact ih _ hanswer (hend.1.trans hw') hs hlooked turn
    unfold runPage
    simp only
    split
    · exact hrest s turn looked (w.noteStore c call).2 hw hs hlooked
    · have hnote : (w.noteStore c call).2.table = t := hw
      refine ends_waited (awaited_waitForPage hnote hs hlooked turn _) ?_ hrest
      exact (sameHoldings_waitForPage s turn looked _ _).1.trans hnote
  | @cache limit call next hnext ih =>
    let failure := ((w.noteCache c call).1.limited limit).2
    have hrest : ∀ s turn looked (w' : World), w'.table = t → Counting c t filter s →
        (looked = true → s ≠ .waiting) → Ends c t good filter deadline
          (runPage c deadline filter (next (w'.endCache call failure).1) s turn looked
            (w'.endCache call failure).2).1 := by
      intro s turn looked w' hw' hs hlooked
      have hend := World.sameTasks_endCache call failure w'
      exact ih _ (hend.1.trans hw') hs hlooked turn
    unfold runPage
    simp only
    split
    · exact hrest s turn looked (w.noteCache c call).2 hw hs hlooked
    · have hnote : (w.noteCache c call).2.table = t := hw
      refine ends_waited (awaited_waitForPage hnote hs hlooked turn _) ?_ hrest
      exact (sameHoldings_waitForPage s turn looked _ _).1.trans hnote

variable {α : Type} {page : Operation (Except TaskError (List Task))}
  {combine : Except TaskError (List Task × Int64) → α} {w : World}

/-- The value of a pair is made of what the stored tasks make of its sides. -/
theorem joint_of_pair {a : α} (h : Finds c w.table good page)
    (hrun : (runActivity c deadline (.pair page filter combine) w).1 = some a) :
    ∃ result, Joint good (Answered c w.table (.countFiltered filter)) result
      ∧ a = combine result := by
  have hends : Ends c w.table good filter deadline
      (runPage c deadline filter page .waiting .page false w).1 :=
    ends_runPage h rfl counting_waiting (fun hlooked => Bool.noConfusion hlooked) .page
  unfold runActivity at hrun
  split at hrun
  · cases hrun
  · simp only at hrun
    generalize runPage c deadline filter page .waiting .page false w = ran at hends hrun
    obtain ⟨_ | result, w'⟩ := ran
    · cases hrun
    · exact ⟨result, hends, (Option.some.inj hrun).symm⟩

/-- A pair whose page only reads changes neither the tasks nor the gauge. -/
theorem sameTasks_pair (h : Reads page) :
    w.SameTasks (runActivity c deadline (.pair page filter combine) w).2 := by
  have hsame : w.SameTasks (runPage c deadline filter page .waiting .page false w).2 :=
    sameTasks_runPage h .waiting .page false w
  unfold runActivity
  split
  · exact .rfl
  · simp only
    generalize runPage c deadline filter page .waiting .page false w = ran at hsame ⊢
    obtain ⟨_ | result, w'⟩ := ran
    · exact hsame
    · exact hsame

/-- Without a deadline a pair has a value. -/
theorem exists_of_pair (h : Finds c w.table good page) :
    ∃ a, (runActivity c none (.pair page filter combine) w).1 = some a := by
  have hends : Ends c w.table good filter none
      (runPage c none filter page .waiting .page false w).1 :=
    ends_runPage h rfl counting_waiting (fun hlooked => Bool.noConfusion hlooked) .page
  simp only [runActivity, Option.any_none, Bool.false_eq_true, if_false]
  generalize runPage c none filter page .waiting .page false w = ran at hends ⊢
  obtain ⟨_ | result, w'⟩ := ran
  · exact absurd rfl hends
  · exact ⟨combine result, rfl⟩

end TaskBoard.Run
