import TaskBoard.Proofs.Run.Account
import TaskBoard.Proofs.Run.Deadline

/-!
# Pages and counts that end before their deadline

A page and its count wait for each other's turns, but never past the later of the two, so a deadline
that the pair does not reach makes no difference to either side.

* `timer_le_runPage`: neither side sets the timer back;
* `runPage_before`: a pair that ends before the deadline is the pair without one;
* `runActivity_before`, `runActivity_map`: the same for whatever a request does.
-/

namespace TaskBoard.Run

variable {c : Conditions} {filter : Filter} {s : CountState} {looked : Bool} {turn : Turn}
  {w : World} {d : Nat}

/-- A wait that is over before the deadline is one without a deadline. -/
theorem World.waitUntil_before {time : Nat} (h : time < d) :
    w.waitUntil (some d) time = w.waitUntil none time :=
  if_neg (Nat.not_le.2 h)

/-! ## Looking at the count -/

/-- A count that has been looked at this time is not due yet. -/
def NotDue (looked : Bool) (s : CountState) (w : World) : Prop :=
  looked = true → ∀ due failure, s = .asked due failure → w.timer < due

theorem notDue_unlooked : NotDue false s w := fun h => Bool.noConfusion h

/-- A look takes no time, and leaves no call that is due. -/
structure Glanced (w : World) (look : Except TaskError CountState × World) : Prop where
  timer_eq : look.2.timer = w.timer
  notDue : ∀ s, look.1 = .ok s → NotDue true s look.2

theorem timer_endCount (failure : Option String) :
    (endCount c filter failure w).2.timer = w.timer :=
  World.timer_endStore (.countFiltered filter) failure w

/-- A call that has been ended is not due again. -/
theorem glanced_endCount (failure : Option String) :
    Glanced w (endCount c filter failure w) := by
  refine ⟨timer_endCount failure, ?_⟩
  intro s hs hlooked due failure' hasked
  have hcounted : ∀ reply : Except TaskError Int64,
      reply.map CountState.counted ≠ .ok (.asked due failure') := by
    intro reply h
    cases reply <;> cases h
  rw [hasked] at hs
  exact absurd hs (hcounted _)

theorem glanced_lookAtCount : Glanced w (lookAtCount c filter s w) := by
  cases s with
  | waiting =>
    simp only [lookAtCount]
    split
    · have hended : Glanced (w.noteStore c (.countFiltered filter)).2
          (endCount c filter (w.noteStore c (.countFiltered filter)).1.failure
            (w.noteStore c (.countFiltered filter)).2) := glanced_endCount _
      exact ⟨hended.timer_eq, hended.notDue⟩
    · rename_i hdelay
      refine ⟨rfl, ?_⟩
      intro s hs hlooked due failure hasked
      rw [hasked] at hs
      -- the call is due after its delay, which is not zero
      cases hs
      exact Nat.lt_add_of_pos_right (Nat.pos_of_ne_zero hdelay)
  | asked due failure =>
    simp only [lookAtCount]
    split
    · exact glanced_endCount failure
    · rename_i hlate
      refine ⟨rfl, ?_⟩
      intro s hs hlooked due' failure' hasked
      rw [hasked] at hs
      cases hs
      exact Nat.not_le.1 hlate
  | counted total =>
    refine ⟨rfl, ?_⟩
    intro s hs hlooked due failure hasked
    rw [hasked] at hs
    cases hs

/-- The same, if the count may have been looked at already. -/
theorem glanced_look (h : NotDue looked s w) :
    Glanced w (if looked then (.ok s, w) else lookAtCount c filter s w) := by
  cases looked with
  | true =>
    refine ⟨rfl, ?_⟩
    intro s' hs'
    cases hs'
    exact h
  | false => exact glanced_lookAtCount

/-! ## Waiting for the page -/

/-- What a wait up to `due` comes to without a deadline. -/
def Reached (w : World) (due : Nat) : Waited → Prop
  | .cutOff _ => False
  | .failed _ w' => w.timer ≤ w'.timer
  | .over s _ looked w' => w'.timer = due ∧ NotDue looked s w'

theorem timer_arrive : (arrive c filter s turn w).world.timer = w.timer := by
  cases turn with
  | page => rfl
  | count =>
    have hglance : Glanced w (lookAtCount c filter s w) := glanced_lookAtCount
    simp only [arrive]
    generalize lookAtCount c filter s w = look at hglance ⊢
    obtain ⟨e | s', w'⟩ := look
    · exact hglance.timer_eq
    · exact hglance.timer_eq

theorem reached_arrive {due : Nat} {w' : World} (hdue : w.timer = due) (hle : w'.timer ≤ due) :
    Reached w' due (arrive c filter s turn w) := by
  cases turn with
  | page => exact ⟨hdue, notDue_unlooked⟩
  | count =>
    have hglance : Glanced w (lookAtCount c filter s w) := glanced_lookAtCount
    simp only [arrive]
    generalize lookAtCount c filter s w = look at hglance ⊢
    obtain ⟨e | s', w''⟩ := look
    · have htimer : w''.timer = due := hglance.timer_eq.trans hdue
      exact htimer ▸ hle
    · exact ⟨hglance.timer_eq.trans hdue, hglance.notDue s' rfl⟩

theorem reached_waitForPage (h : NotDue looked s w) (delay : Nat) :
    Reached w (w.timer + delay) (waitForPage c none filter s turn looked delay w) := by
  have hglance : Glanced w (if looked then (.ok s, w) else lookAtCount c filter s w) :=
    glanced_look h
  have hle : w.timer ≤ w.timer + delay := Nat.le_add_right _ _
  unfold waitForPage
  simp only
  generalize (if looked = true then (Except.ok s, w) else lookAtCount c filter s w) = look
    at hglance ⊢
  obtain ⟨e | s', w₁⟩ := look
  · exact Nat.le_of_eq hglance.timer_eq.symm
  · cases s' with
    | waiting => exact reached_arrive rfl hle
    | counted total => exact reached_arrive rfl hle
    | asked due failure =>
      simp only
      split
      · -- the count is due on the way
        have hdue : w₁.timer < due := hglance.notDue _ rfl rfl due failure rfl
        have htimer : w₁.timer = w.timer := hglance.timer_eq
        have hended : (endCount c filter failure { w₁ with timer := due }).2.timer = due :=
          timer_endCount failure
        simp only [World.waitUntil]
        generalize endCount c filter failure { w₁ with timer := due } = ended at hended ⊢
        obtain ⟨e | s', w₂⟩ := ended
        · have hlate : w.timer ≤ w₂.timer := by
            have htimer' : w₂.timer = due := hended
            omega
          exact hlate
        · exact reached_arrive rfl hle
      · exact reached_arrive rfl hle

/-- Waiting without the count in between. -/
theorem goOn_before {due : Nat} (h : (match w.waitUntil none due with
      | (false, w) => Waited.cutOff w
      | (true, w) => arrive c filter s turn w).world.timer < d) :
    due < d ∧ (match w.waitUntil (some d) due with
      | (false, w) => Waited.cutOff w
      | (true, w) => arrive c filter s turn w) = (match w.waitUntil none due with
      | (false, w) => Waited.cutOff w
      | (true, w) => arrive c filter s turn w) := by
  have htimer : (arrive c filter s turn { w with timer := due }).world.timer = due := timer_arrive
  have hbefore : due < d := htimer ▸ h
  rw [World.waitUntil_before hbefore]
  exact ⟨hbefore, rfl⟩

/-- A wait that is over before the deadline is one without a deadline. -/
theorem waitForPage_before {delay : Nat}
    (h : (waitForPage c none filter s turn looked delay w).world.timer < d) :
    waitForPage c (some d) filter s turn looked delay w
      = waitForPage c none filter s turn looked delay w := by
  unfold waitForPage at h ⊢
  simp only at h ⊢
  generalize (if looked = true then (Except.ok s, w) else lookAtCount c filter s w) = look at h ⊢
  obtain ⟨e | s', w₁⟩ := look
  · rfl
  · cases s' with
    | waiting => exact (goOn_before h).2
    | counted total => exact (goOn_before h).2
    | asked due failure =>
      simp only at h ⊢
      by_cases hdue : due < w.timer + delay
      · -- the count is due on the way
        rw [if_pos hdue] at h
        rw [if_pos hdue, if_pos hdue]
        have hended : (endCount c filter failure { w₁ with timer := due }).2.timer = due :=
          timer_endCount failure
        simp only [World.waitUntil] at h hended
        generalize hcount : endCount c filter failure { w₁ with timer := due } = ended at hended h
        obtain ⟨e | s', w₂⟩ := ended
        · have hbefore : due < d := hended ▸ h
          rw [World.waitUntil_before hbefore]
          simp only [World.waitUntil, hcount]
        · obtain ⟨hlate, hsame⟩ := goOn_before h
          rw [World.waitUntil_before (Nat.lt_trans hdue hlate)]
          simp only [World.waitUntil, hcount]
          exact hsame
      · rw [if_neg hdue] at h
        rw [if_neg hdue, if_neg hdue]
        exact (goOn_before h).2

/-! ## The page and the count -/

theorem timer_finishCount (items : List Task) (h : NotDue true s w) :
    w.timer ≤ (finishCount c none filter items s w).2.timer := by
  cases s with
  | waiting => exact Nat.le_refl _
  | counted total => exact Nat.le_refl _
  | asked due failure =>
    have hdue : w.timer < due := h rfl due failure rfl
    have hended : ({ w with timer := due }.endStore c (.countFiltered filter) failure).2.timer
        = due := World.timer_endStore _ _ _
    simp only [finishCount, World.waitUntil]
    generalize { w with timer := due }.endStore c (.countFiltered filter) failure = ended
      at hended ⊢
    obtain ⟨e | total, w'⟩ := ended
    · exact hended ▸ Nat.le_of_lt hdue
    · exact hended ▸ Nat.le_of_lt hdue

/-- What a page comes to, with the count. -/
abbrev PageResult : Type := Option (Except TaskError (List Task × Int64)) × World

/-- A call of the page that takes `delay` milliseconds, and what comes after it. -/
def pageCall (c : Conditions) (deadline : Option Nat) (filter : Filter) (delay : Nat)
    (rest : CountState → Turn → Bool → World → PageResult) (s : CountState) (turn : Turn)
    (looked : Bool) (w : World) : PageResult :=
  if delay = 0 then rest s turn looked w
  else
    match waitForPage c deadline filter s turn looked delay w with
    | .cutOff w => (none, w)
    | .failed e w => (some (.error e), w)
    | .over s turn looked w => rest s turn looked w

theorem runPage_store {deadline : Option Nat} (call : StoreCall)
    (next : call.Reply → Operation (Except TaskError (List Task))) :
    runPage c deadline filter (.store call next) s turn looked w
      = pageCall c deadline filter (w.noteStore c call).1.delay
          (fun s turn looked w' =>
            runPage c deadline filter
              (next (w'.endStore c call (w.noteStore c call).1.failure).1) s turn looked
              (w'.endStore c call (w.noteStore c call).1.failure).2)
          s turn looked (w.noteStore c call).2 := by
  rw [runPage]
  rfl

theorem runPage_cache {deadline : Option Nat} (limit : Nat) (call : CacheCall)
    (next : call.Reply → Operation (Except TaskError (List Task))) :
    runPage c deadline filter (.cache limit call next) s turn looked w
      = pageCall c deadline filter ((w.noteCache c call).1.limited limit).1
          (fun s turn looked w' =>
            runPage c deadline filter
              (next (w'.endCache call ((w.noteCache c call).1.limited limit).2).1) s turn looked
              (w'.endCache call ((w.noteCache c call).1.limited limit).2).2)
          s turn looked (w.noteCache c call).2 := by
  rw [runPage]
  rfl

/-- What comes after a call does not set the timer back. -/
def Forward (rest : CountState → Turn → Bool → World → PageResult) : Prop :=
  ∀ s turn looked w, NotDue looked s w → w.timer ≤ (rest s turn looked w).2.timer

theorem timer_pageCall {rest : CountState → Turn → Bool → World → PageResult} {delay : Nat}
    (hrest : Forward rest) (h : NotDue looked s w) :
    w.timer ≤ (pageCall c none filter delay rest s turn looked w).2.timer := by
  unfold pageCall
  split
  · exact hrest s turn looked w h
  · have hwait : Reached w (w.timer + delay) (waitForPage c none filter s turn looked delay w) :=
      reached_waitForPage h delay
    generalize waitForPage c none filter s turn looked delay w = waited at hwait ⊢
    rcases waited with w' | ⟨e, w'⟩ | ⟨s', turn', looked', w'⟩
    · exact hwait.elim
    · exact hwait
    · obtain ⟨htimer, hdue⟩ := hwait
      have hover := hrest s' turn' looked' w' hdue
      simp only
      omega

/-- A call that ends in time, with everything after it, is one without a deadline. -/
theorem pageCall_before {rest rest' : CountState → Turn → Bool → World → PageResult} {delay : Nat}
    (hrest : Forward rest)
    (hsame : ∀ s turn looked w, NotDue looked s w → (rest s turn looked w).2.timer < d →
      rest' s turn looked w = rest s turn looked w)
    (h : NotDue looked s w)
    (hbefore : (pageCall c none filter delay rest s turn looked w).2.timer < d) :
    pageCall c (some d) filter delay rest' s turn looked w
      = pageCall c none filter delay rest s turn looked w := by
  unfold pageCall at hbefore ⊢
  split at hbefore
  · rename_i hzero
    rw [if_pos hzero, if_pos hzero]
    exact hsame s turn looked w h hbefore
  · rename_i hdelay
    rw [if_neg hdelay, if_neg hdelay]
    have hwait : Reached w (w.timer + delay) (waitForPage c none filter s turn looked delay w) :=
      reached_waitForPage h delay
    have hwaited : (waitForPage c none filter s turn looked delay w).world.timer < d →
        waitForPage c (some d) filter s turn looked delay w
          = waitForPage c none filter s turn looked delay w := waitForPage_before
    generalize waitForPage c none filter s turn looked delay w = waited at hwait hwaited hbefore ⊢
    rcases waited with w' | ⟨e, w'⟩ | ⟨s', turn', looked', w'⟩
    · exact hwait.elim
    · rw [hwaited hbefore]
    · have hover := hrest s' turn' looked' w' hwait.2
      rw [hwaited (Nat.lt_of_le_of_lt hover hbefore)]
      exact hsame s' turn' looked' w' hwait.2 hbefore

theorem NotDue.of_timer {w' : World} (h : NotDue looked s w) (htimer : w'.timer = w.timer) :
    NotDue looked s w' := by
  intro hlooked due failure hasked
  rw [htimer]
  exact h hlooked due failure hasked

/-- The end of a call takes no time. -/
theorem Forward.after {ρ : Type} {rest : ρ → CountState → Turn → Bool → World → PageResult}
    {f : World → ρ × World} (hrest : ∀ reply, Forward (rest reply))
    (htimer : ∀ w, (f w).2.timer = w.timer) :
    Forward fun s turn looked w => rest (f w).1 s turn looked (f w).2 := by
  intro s turn looked w h
  have hover := hrest (f w).1 s turn looked (f w).2 (h.of_timer (htimer w))
  rwa [htimer] at hover

/-- Neither side sets the timer back. -/
theorem forward_runPage (page : Operation (Except TaskError (List Task))) :
    Forward (runPage c none filter page) := by
  induction page with
  | done result =>
    intro s turn looked w h
    cases result with
    | error e => exact Nat.le_refl _
    | ok items =>
      have hglance : Glanced w (if looked then (.ok s, w) else lookAtCount c filter s w) :=
        glanced_look h
      unfold runPage
      generalize (if looked = true then (Except.ok s, w) else lookAtCount c filter s w) = look
        at hglance ⊢
      obtain ⟨e | s', w'⟩ := look
      · exact Nat.le_of_eq hglance.timer_eq.symm
      · have hrest : w'.timer ≤ (finishCount c none filter items s' w').2.timer :=
          timer_finishCount items (hglance.notDue s' rfl)
        exact Nat.le_trans (Nat.le_of_eq hglance.timer_eq.symm) hrest
  | gauge change next ih =>
    intro s turn looked w h
    unfold runPage
    exact ih s turn looked (w.changeGauge change) h
  | store call next ih =>
    intro s turn looked w h
    rw [runPage_store]
    have hrest := Forward.after ih
      (World.timer_endStore (c := c) call (w.noteStore c call).1.failure)
    exact timer_pageCall (w := (w.noteStore c call).2) hrest h
  | cache limit call next ih =>
    intro s turn looked w h
    rw [runPage_cache]
    have hrest := Forward.after ih
      (World.timer_endCache call ((w.noteCache c call).1.limited limit).2)
    exact timer_pageCall (w := (w.noteCache c call).2) hrest h

theorem finishCount_before {items : List Task}
    (h : (finishCount c none filter items s w).2.timer < d) :
    finishCount c (some d) filter items s w = finishCount c none filter items s w := by
  cases s with
  | waiting => rfl
  | counted total => rfl
  | asked due failure =>
    have hended : ({ w with timer := due }.endStore c (.countFiltered filter) failure).2.timer
        = due := World.timer_endStore _ _ _
    have hbefore : due < d := by
      simp only [finishCount, World.waitUntil] at h
      generalize { w with timer := due }.endStore c (.countFiltered filter) failure = ended
        at hended h
      obtain ⟨e | total, w'⟩ := ended
      · exact hended ▸ h
      · exact hended ▸ h
    simp only [finishCount, World.waitUntil_before hbefore]

/-- A page and a count that end before the deadline are those without one. -/
theorem runPage_before {page : Operation (Except TaskError (List Task))} (h : NotDue looked s w)
    (hbefore : (runPage c none filter page s turn looked w).2.timer < d) :
    runPage c (some d) filter page s turn looked w
      = runPage c none filter page s turn looked w := by
  induction page generalizing s turn looked w with
  | done result =>
    cases result with
    | error e => rfl
    | ok items =>
      unfold runPage at hbefore ⊢
      generalize (if looked = true then (Except.ok s, w) else lookAtCount c filter s w) = look
        at hbefore ⊢
      obtain ⟨e | s', w'⟩ := look
      · rfl
      · exact finishCount_before hbefore
  | gauge change next ih =>
    unfold runPage at hbefore ⊢
    exact ih (w := w.changeGauge change) h hbefore
  | store call next ih =>
    rw [runPage_store] at hbefore
    rw [runPage_store, runPage_store]
    have hforward : ∀ reply, Forward (runPage c none filter (next reply)) :=
      fun reply => forward_runPage (next reply)
    have hrest := Forward.after hforward
      (World.timer_endStore (c := c) call (w.noteStore c call).1.failure)
    refine pageCall_before (w := (w.noteStore c call).2) hrest ?_ h hbefore
    intro s turn looked w' h hover
    exact ih _ (h.of_timer (World.timer_endStore call _ w')) hover
  | cache limit call next ih =>
    rw [runPage_cache] at hbefore
    rw [runPage_cache, runPage_cache]
    have hforward : ∀ reply, Forward (runPage c none filter (next reply)) :=
      fun reply => forward_runPage (next reply)
    have hrest := Forward.after hforward
      (World.timer_endCache call ((w.noteCache c call).1.limited limit).2)
    refine pageCall_before (w := (w.noteCache c call).2) hrest ?_ h hbefore
    intro s turn looked w' h hover
    exact ih _ (h.of_timer (World.timer_endCache call _ w')) hover

/-! ## Activities -/

variable {α β : Type}

/-- An activity that ends before the deadline is the one without. -/
theorem runActivity_before {a : Activity α} (h : (runActivity c none a w).2.timer < d) :
    runActivity c (some d) a w = runActivity c none a w := by
  cases a with
  | single op =>
    have hstart : w.timer < d := Nat.lt_of_le_of_lt (timer_le_run c op w) h
    have hsame : run c (some d) op w = run c none op w := run_before op h
    unfold runActivity
    rw [if_neg (by simpa using hstart), if_neg (by simp)]
    exact hsame
  | pair page filter combine =>
    unfold runActivity at h ⊢
    rw [if_neg (by simp)] at h
    simp only at h
    have hbefore : (runPage c none filter page .waiting .page false w).2.timer < d := by
      generalize runPage c none filter page .waiting .page false w = result at h ⊢
      obtain ⟨_ | result, w'⟩ := result
      · exact h
      · exact h
    have hstart : w.timer < d :=
      Nat.lt_of_le_of_lt (forward_runPage page _ _ _ w notDue_unlooked) hbefore
    rw [if_neg (by simpa using hstart), if_neg (by simp)]
    simp only [runPage_before notDue_unlooked hbefore]

/-- Replacing the value of an activity changes nothing else about it. -/
theorem runActivity_map (f : α → β) (deadline : Option Nat) (a : Activity α) (w : World) :
    runActivity c deadline (a.map f) w
      = ((runActivity c deadline a w).1.map f, (runActivity c deadline a w).2) := by
  unfold runActivity
  by_cases hlate : deadline.any (· ≤ w.timer) = true
  · rw [if_pos hlate, if_pos hlate]
    rfl
  · rw [if_neg hlate, if_neg hlate]
    cases a with
    | single op => exact run_map f op w
    | pair page filter combine =>
      simp only [Activity.map]
      generalize runPage c deadline filter page .waiting .page false w = result
      obtain ⟨_ | result, w'⟩ := result
      · rfl
      · rfl

end TaskBoard.Run
