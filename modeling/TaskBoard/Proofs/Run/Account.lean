import TaskBoard.Proofs.Run.World
import TaskBoard.Run.Pair

/-!
# Keeping count of the stored tasks

An operation that creates or deletes a task owes the gauge one change from then on. `Pays k op`
says that `op` owes the change `k`, makes no further one before it has paid, and ends when it has.

* `settled_run`: an operation that is run to its end has paid; one that is cut off has not touched
  the gauge, and may owe one change;
* `sameTasks_runPage`: a page and its count change neither the tasks nor the gauge.
-/

namespace TaskBoard.Run

variable {α β : Type} {c : Conditions} {deadline : Option Nat}

/-! ## What an operation owes -/

/-- An operation that owes the gauge the change `k` and ends with a value that is `good`. -/
inductive Pays (good : α → Prop) : Int → Operation α → Prop where
  | done {a : α} (hgood : good a) : Pays good 0 (.done a)
  | store {call : StoreCall} {next : call.Reply → Operation α}
      (hnext : ∀ reply, Pays good (call.sizeChange reply) (next reply)) :
      Pays good 0 (.store call next)
  | cache {k : Int} {limit : Nat} {call : CacheCall} {next : call.Reply → Operation α}
      (hnext : ∀ reply, Pays good k (next reply)) : Pays good k (.cache limit call next)
  | increment {a : α} (hgood : good a) : Pays good 1 (.gauge .increment (.done a))
  | decrement {a : α} (hgood : good a) : Pays good (-1) (.gauge .decrement (.done a))

theorem Pays.map {good : α → Prop} {good' : β → Prop} {f : α → β}
    (hf : ∀ a, good a → good' (f a)) {k : Int} {op : Operation α} (h : Pays good k op) :
    Pays good' k (op.map f) := by
  induction h with
  | done hgood => exact .done (hf _ hgood)
  | store _ ih => exact .store ih
  | cache _ ih => exact .cache ih
  | increment hgood => exact .increment (hf _ hgood)
  | decrement hgood => exact .decrement (hf _ hgood)

/-- What has become of an operation that owed `k`: it has paid, or it has been cut off with the
gauge as it was and at most one change left to pay. -/
def Settled (good : α → Prop) (k : Int) (w : World) : Option α × World → Prop
  | (some a, w') => good a ∧ w'.drift = w.drift + Int64.ofInt k
  | (none, w') => w'.gauge = w.gauge ∧ -1 ≤ w.growth w' + k ∧ w.growth w' + k ≤ 1

theorem Settled.of_sameTasks {good : α → Prop} {k : Int} {w w' : World} {result : Option α × World}
    (hsame : w.SameTasks w') (h : Settled good k w' result) : Settled good k w result := by
  obtain ⟨htable, hgauge⟩ := hsame
  obtain ⟨_ | a, w''⟩ := result
  · simpa [Settled, World.growth, htable, hgauge] using h
  · simpa [Settled, World.drift, htable, hgauge] using h

/-- What a store call has changed is owed from then on. -/
theorem Settled.of_growth {good : α → Prop} {k : Int} {w w' : World} {result : Option α × World}
    (hgauge : w'.gauge = w.gauge) (hgrowth : w.growth w' = k) (h : Settled good k w' result) :
    Settled good 0 w result := by
  unfold World.growth at hgrowth
  obtain ⟨_ | a, w''⟩ := result
  · obtain ⟨hkept, hlow, hhigh⟩ := h
    unfold World.growth at hlow hhigh
    refine ⟨hkept.trans hgauge, ?_, ?_⟩
    · unfold World.growth
      omega
    · unfold World.growth
      omega
  · obtain ⟨hgood, hdrift⟩ := h
    have hsize : (w'.table.size : Int) = w.table.size + k := by omega
    have hsize' : Int64.ofNat w'.table.size = Int64.ofNat w.table.size + Int64.ofInt k := by
      rw [← Int64.ofInt_eq_ofNat, hsize, Int64.ofInt_add, Int64.ofInt_eq_ofNat]
    refine ⟨hgood, ?_⟩
    have hzero : Int64.ofInt 0 = 0 := rfl
    simp only [World.drift, hgauge, hsize'] at hdrift ⊢
    rw [hdrift, hzero]
    grind

theorem sizeChange_bounds (call : StoreCall) (reply : call.Reply) :
    -1 ≤ call.sizeChange reply ∧ call.sizeChange reply ≤ 1 := by
  unfold StoreCall.sizeChange
  split <;> decide

/-- An operation that is run to its end has paid what it owed; one that is cut off has left the
gauge alone. -/
theorem settled_run {good : α → Prop} {k : Int} {op : Operation α} (h : Pays good k op)
    (hk : -1 ≤ k ∧ k ≤ 1) (w : World) : Settled good k w (run c deadline op w) := by
  induction h generalizing w with
  | done hgood => exact ⟨hgood, by simp⟩
  | increment hgood =>
    have hone : Int64.ofInt 1 = 1 := rfl
    refine ⟨hgood, ?_⟩
    simp only [World.drift, World.changeGauge, GaugeChange.apply, hone]
    grind
  | decrement hgood =>
    have hone : Int64.ofInt (-1) = -1 := rfl
    refine ⟨hgood, ?_⟩
    simp only [World.drift, World.changeGauge, GaugeChange.apply, hone]
    grind
  | @store call next hnext ih =>
    have hpause := (World.sameHoldings_pause deadline (w.noteStore c call).1.delay
      (w.noteStore c call).2).sameTasks
    unfold run
    simp only
    rcases hresult : (w.noteStore c call).2.pause deadline (w.noteStore c call).1.delay with ⟨b, w₁⟩
    rw [hresult] at hpause
    refine Settled.of_sameTasks hpause ?_
    cases b with
    | false =>
      -- cut off while the call waits
      exact ⟨rfl, by simp [World.growth], by simp [World.growth]⟩
    | true =>
      have hcall := World.growth_endStore (c := c) call (w.noteStore c call).1.failure w₁
      have hreply := ih (w₁.endStore c call (w.noteStore c call).1.failure).1
        (sizeChange_bounds call _) (w₁.endStore c call (w.noteStore c call).1.failure).2
      exact hreply.of_growth hcall.1 hcall.2
  | @cache k limit call next hnext ih =>
    have hpause := (World.sameHoldings_pause deadline
      ((w.noteCache c call).1.limited limit).1 (w.noteCache c call).2).sameTasks
    unfold run
    simp only
    rcases hresult : (w.noteCache c call).2.pause deadline
      ((w.noteCache c call).1.limited limit).1 with ⟨b, w₁⟩
    rw [hresult] at hpause
    refine Settled.of_sameTasks hpause ?_
    cases b with
    | false => exact ⟨rfl, by simpa [World.growth] using hk.1, by simpa [World.growth] using hk.2⟩
    | true =>
      have hcall := World.sameTasks_endCache call ((w.noteCache c call).1.limited limit).2 w₁
      exact (ih _ hk _).of_sameTasks hcall

/-! ## A page and its count

Neither side writes, so whatever comes first the tasks and the gauge stay as they are. -/

/-- An operation that only reads. -/
inductive Reads : Operation α → Prop where
  | done (a : α) : Reads (.done a)
  | store {call : StoreCall} {next : call.Reply → Operation α} (hcall : call.writes = false)
      (hnext : ∀ reply, Reads (next reply)) : Reads (.store call next)
  | cache {limit : Nat} {call : CacheCall} {next : call.Reply → Operation α}
      (hnext : ∀ reply, Reads (next reply)) : Reads (.cache limit call next)

/-- Reading owes nothing. -/
theorem Reads.pays {op : Operation α} (h : Reads op) : Pays (fun _ => True) 0 op := by
  induction h with
  | done a => exact .done trivial
  | @store call next hcall hnext ih =>
    refine .store fun reply => ?_
    rw [StoreCall.sizeChange_of_reads hcall]
    exact ih reply
  | cache hnext ih => exact .cache ih

theorem Reads.map {op : Operation α} (f : α → β) (h : Reads op) : Reads (op.map f) := by
  induction h with
  | done a => exact .done (f a)
  | store hcall _ ih => exact .store hcall ih
  | cache _ ih => exact .cache ih

variable {filter : Filter}

/-- The world after a wait of the page. -/
def Waited.world : Waited → World
  | .cutOff w | .failed _ w | .over _ _ _ w => w

theorem sameHoldings_endCount (failure : Option String) (w : World) :
    w.SameHoldings (endCount c filter failure w).2 :=
  World.sameHoldings_endStore rfl failure w

theorem sameHoldings_lookAtCount (s : CountState) (w : World) :
    w.SameHoldings (lookAtCount c filter s w).2 := by
  cases s with
  | waiting =>
    have hnote : w.SameHoldings (w.noteStore c (.countFiltered filter)).2 :=
      World.sameHoldings_noteStore _ w
    simp only [lookAtCount]
    split
    · exact hnote.trans (sameHoldings_endCount _ _)
    · exact hnote
  | asked due failure =>
    simp only [lookAtCount]
    split
    · exact sameHoldings_endCount failure w
    · exact .rfl
  | counted total => exact .rfl

theorem sameHoldings_finishCount (items : List Task) (s : CountState) (w : World) :
    w.SameHoldings (finishCount c deadline filter items s w).2 := by
  cases s with
  | counted total => exact .rfl
  | waiting => exact .rfl
  | asked due failure =>
    have hwait := World.sameHoldings_waitUntil deadline due w
    simp only [finishCount]
    rcases hresult : w.waitUntil deadline due with ⟨b, w₁⟩
    rw [hresult] at hwait
    cases b with
    | false => exact hwait
    | true =>
      have hend : w₁.SameHoldings (w₁.endStore c (.countFiltered filter) failure).2 :=
        World.sameHoldings_endStore rfl failure w₁
      simp only
      rcases hreply : w₁.endStore c (.countFiltered filter) failure with ⟨e | total, w₂⟩
      · rw [hreply] at hend
        exact hwait.trans hend
      · rw [hreply] at hend
        exact hwait.trans hend

theorem sameHoldings_arrive (s : CountState) (turn : Turn) (w : World) :
    w.SameHoldings (arrive c filter s turn w).world := by
  cases turn with
  | page => exact .rfl
  | count =>
    have hlook : w.SameHoldings (lookAtCount c filter s w).2 := sameHoldings_lookAtCount s w
    simp only [arrive]
    rcases hresult : lookAtCount c filter s w with ⟨e | s', w₁⟩
    · rw [hresult] at hlook
      exact hlook
    · rw [hresult] at hlook
      exact hlook

/-- Looking at the count, unless that has been done. -/
theorem sameHoldings_look (looked : Bool) (s : CountState) (w : World) :
    w.SameHoldings (if looked then (.ok s, w) else lookAtCount c filter s w).2 := by
  cases looked with
  | true => exact .rfl
  | false => exact sameHoldings_lookAtCount s w

/-- Waiting for the page without the count in between. -/
theorem sameHoldings_goOn (due : Nat) (s : CountState) (turn : Turn) (w : World) :
    w.SameHoldings (match w.waitUntil deadline due with
      | (false, w) => Waited.cutOff w
      | (true, w) => arrive c filter s turn w).world := by
  have hwait := World.sameHoldings_waitUntil deadline due w
  rcases hresult : w.waitUntil deadline due with ⟨b, w₁⟩
  rw [hresult] at hwait
  cases b with
  | false => exact hwait
  | true => exact hwait.trans (sameHoldings_arrive s turn w₁)

theorem sameHoldings_waitForPage (s : CountState) (turn : Turn) (looked : Bool) (delay : Nat)
    (w : World) :
    w.SameHoldings (waitForPage c deadline filter s turn looked delay w).world := by
  have hlook : w.SameHoldings (if looked then (.ok s, w) else lookAtCount c filter s w).2 :=
    sameHoldings_look looked s w
  unfold waitForPage
  simp only
  generalize (if looked = true then (Except.ok s, w) else lookAtCount c filter s w) = looks
    at hlook ⊢
  obtain ⟨e | s', w₁⟩ := looks
  · exact hlook
  · refine World.SameHoldings.trans hlook ?_
    cases s' with
    | waiting => exact sameHoldings_goOn _ _ _ w₁
    | counted total => exact sameHoldings_goOn _ _ _ w₁
    | asked due failure =>
      simp only
      by_cases hdue : due < w.timer + delay
      · -- the count is due on the way
        rw [if_pos hdue]
        have hwait := World.sameHoldings_waitUntil deadline due w₁
        generalize w₁.waitUntil deadline due = waited at hwait ⊢
        obtain ⟨b, w₂⟩ := waited
        cases b with
        | false => exact hwait
        | true =>
          have hend : w₂.SameHoldings (endCount c filter failure w₂).2 := sameHoldings_endCount failure w₂
          refine hwait.trans ?_
          simp only
          generalize endCount c filter failure w₂ = counted at hend ⊢
          obtain ⟨e | s', w₃⟩ := counted
          · exact hend
          · exact hend.trans (sameHoldings_goOn _ _ _ w₃)
      · rw [if_neg hdue]
        exact sameHoldings_goOn _ _ _ w₁

/-- Reading a page and counting beside it changes neither the tasks nor the gauge. -/
theorem sameTasks_runPage {page : Operation (Except TaskError (List Task))} (h : Reads page)
    (s : CountState) (turn : Turn) (looked : Bool) (w : World) :
    w.SameTasks (runPage c deadline filter page s turn looked w).2 := by
  induction h generalizing s turn looked w with
  | done result =>
    cases result with
    | error e => exact .rfl
    | ok items =>
      have hlook : w.SameTasks (if looked then (.ok s, w) else lookAtCount c filter s w).2 :=
        (sameHoldings_look looked s w).sameTasks
      unfold runPage
      generalize (if looked = true then (Except.ok s, w) else lookAtCount c filter s w) = looks
        at hlook ⊢
      obtain ⟨e | s', w₁⟩ := looks
      · exact hlook
      · exact World.SameTasks.trans hlook (sameHoldings_finishCount items s' w₁).sameTasks
  | @store call next hcall hnext ih =>
    have hend := fun w' => (World.sameHoldings_endStore (c := c) hcall
      (w.noteStore c call).1.failure w').sameTasks
    unfold runPage
    simp only
    by_cases hdelay : (w.noteStore c call).1.delay = 0
    · rw [if_pos hdelay]
      exact (hend (w.noteStore c call).2).trans (ih _ s turn looked _)
    · rw [if_neg hdelay]
      have hwait : (w.noteStore c call).2.SameTasks (waitForPage c deadline filter s turn looked
          (w.noteStore c call).1.delay (w.noteStore c call).2).world :=
        (sameHoldings_waitForPage s turn looked _ _).sameTasks
      generalize waitForPage c deadline filter s turn looked (w.noteStore c call).1.delay
        (w.noteStore c call).2 = waited at hwait ⊢
      rcases waited with w₁ | ⟨e, w₁⟩ | ⟨s, turn, looked, w₁⟩
      · exact hwait
      · exact hwait
      · exact (hwait.trans (hend w₁)).trans (ih _ s turn looked _)
  | @cache limit call next hnext ih =>
    have hend := World.sameTasks_endCache call ((w.noteCache c call).1.limited limit).2
    unfold runPage
    simp only
    by_cases hdelay : ((w.noteCache c call).1.limited limit).1 = 0
    · rw [if_pos hdelay]
      exact (hend (w.noteCache c call).2).trans (ih _ s turn looked _)
    · rw [if_neg hdelay]
      have hwait : (w.noteCache c call).2.SameTasks (waitForPage c deadline filter s turn looked
          ((w.noteCache c call).1.limited limit).1 (w.noteCache c call).2).world :=
        (sameHoldings_waitForPage s turn looked _ _).sameTasks
      generalize waitForPage c deadline filter s turn looked
        ((w.noteCache c call).1.limited limit).1 (w.noteCache c call).2 = waited at hwait ⊢
      rcases waited with w₁ | ⟨e, w₁⟩ | ⟨s, turn, looked, w₁⟩
      · exact hwait
      · exact hwait
      · exact (hwait.trans (hend w₁)).trans (ih _ s turn looked _)

end TaskBoard.Run
