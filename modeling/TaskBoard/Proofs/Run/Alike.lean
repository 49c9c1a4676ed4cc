import TaskBoard.Proofs.Run.InTime

/-!
# Runs under conditions that fail alike

Under two sets of conditions the same calls may fail after the same waits and give different texts
for it. An operation that goes on alike whatever the text says (`Operation.Alike`) then runs alike:
the same calls are made at the same times, and the world is the same after each of them.

* `run_alike`: one operation under both, by induction on what it does after each answer;
* `waitForPage_alike`, `runPage_alike`: a page with its count beside it;
* `runActivity_alike`: an activity under both.
-/

namespace TaskBoard

/-! ## What is alike -/

/-- Errors that differ at most in what a store says about its failure. -/
inductive TaskError.Alike : TaskError → TaskError → Prop where
  | refl (e : TaskError) : Alike e e
  | persistence (detail detail' : String) : Alike (.persistence detail) (.persistence detail')

/-- Two results: errors that `E` relates, or values that `R` relates. -/
inductive Agree {ε α : Type} (E : ε → ε → Prop) (R : α → α → Prop) :
    Except ε α → Except ε α → Prop where
  | ok {a b : α} (h : R a b) : Agree E R (.ok a) (.ok b)
  | error {e e' : ε} (h : E e e') : Agree E R (.error e) (.error e')

/-- Results that differ at most in the text of a failure of the store. -/
abbrev SameButText {α : Type} : Except TaskError α → Except TaskError α → Prop :=
  Agree TaskError.Alike Eq

/-- Answers of a cache that are equal or both errors. -/
abbrev SameOrFailed {α : Type} : Except CacheError α → Except CacheError α → Prop :=
  Agree (fun _ _ => True) Eq

/-- Operations that make the same calls and changes and end in values that `R` relates, as long as
they are given answers that differ in nothing but the texts of errors. -/
inductive Operation.Alike {α : Type} (R : α → α → Prop) : Operation α → Operation α → Prop where
  | done {a b : α} (h : R a b) : Alike R (.done a) (.done b)
  | store {call : StoreCall} {next next' : call.Reply → Operation α}
      (h : ∀ reply reply', SameButText reply reply' → Alike R (next reply) (next' reply')) :
      Alike R (.store call next) (.store call next')
  | cache {limit : Nat} {call : CacheCall} {next next' : call.Reply → Operation α}
      (h : ∀ reply reply', SameOrFailed reply reply' → Alike R (next reply) (next' reply')) :
      Alike R (.cache limit call next) (.cache limit call next')
  | gauge {change : GaugeChange} {next next' : Operation α} (h : Alike R next next') :
      Alike R (.gauge change next) (.gauge change next')

namespace Operation.Alike

variable {α β : Type} {R : α → α → Prop} {Q : β → β → Prop} {op op' : Operation α}

/-- One after another, operations stay alike. -/
theorem bind {f g : α → Operation β} (h : Alike R op op')
    (hf : ∀ a b, R a b → Alike Q (f a) (g b)) : Alike Q (op.bind f) (op'.bind g) := by
  induction h with
  | done h => exact hf _ _ h
  | store _ ih => exact .store ih
  | cache _ ih => exact .cache ih
  | gauge _ ih => exact .gauge ih

theorem map {f g : α → β} (h : Alike R op op') (hf : ∀ a b, R a b → Q (f a) (g b)) :
    Alike Q (op.map f) (op'.map g) :=
  h.bind fun a b hab => .done (hf a b hab)

end Operation.Alike

/-- An activity whose value does not depend on the texts of errors. -/
inductive Activity.Blind {α : Type} : Activity α → Prop where
  | single {op : Operation α} (h : op.Alike Eq op) : Blind (.single op)
  | pair {page : Operation (Except TaskError (List Task))} {filter : Filter}
      {combine : Except TaskError (List Task × Int64) → α} (hpage : page.Alike SameButText page)
      (hcombine : ∀ result result', SameButText result result' →
        combine result = combine result') : Blind (.pair page filter combine)

namespace Run

/-- Failures of two calls of which both fail or neither does. -/
abbrev SameFailure {α : Type} : Option α → Option α → Prop := Option.Rel fun _ _ => True

/-- Store calls that wait alike and fail alike. -/
structure StoreFate.Alike (fate fate' : StoreFate) : Prop where
  delay_eq : fate.delay = fate'.delay
  failure : SameFailure fate.failure fate'.failure

/-- Cache calls that wait alike and fail alike. -/
inductive CacheFate.Alike : CacheFate → CacheFate → Prop where
  | stalls : Alike .stalls .stalls
  | ends (delay : Nat) {failure failure' : Option CacheError} (h : SameFailure failure failure') :
      Alike (.ends delay failure) (.ends delay failure')

/-- The same calls fail after the same waits, and the same ids are generated. What the failures say
may differ. -/
structure Conditions.Alike (c c' : Conditions) : Prop where
  store : ∀ n call, (c.store n call).Alike (c'.store n call)
  cache : ∀ n call, (c.cache n call).Alike (c'.cache n call)
  id_eq : c.id = c'.id

/-- Values that `R` relates, in one and the same world. -/
structure Together {α : Type} (R : α → α → Prop) (x y : α × World) : Prop where
  value : R x.1 y.1
  world_eq : x.2 = y.2

variable {α : Type} {R : α → α → Prop} {c c' : Conditions} {deadline : Option Nat}

/-! ## Calls -/

/-- A store call is noted alike. -/
theorem noteStore_alike (hc : c.Alike c') (call : StoreCall) (w : World) :
    Together StoreFate.Alike (w.noteStore c call) (w.noteStore c' call) :=
  ⟨hc.store _ call, rfl⟩

/-- Store calls that fail alike are answered alike. -/
theorem endStore_alike (hc : c.Alike c') (call : StoreCall) {failure failure' : Option String}
    (h : SameFailure failure failure') (w : World) :
    Together SameButText (w.endStore c call failure) (w.endStore c' call failure') := by
  cases h with
  | none =>
    have hperform : w.performStore c call = w.performStore c' call := by
      unfold World.performStore
      rw [hc.id_eq]
    refine ⟨?_, congrArg Prod.snd hperform⟩
    simp only [World.endStore, hperform]
    cases (w.performStore c' call).1 with
    | error e => exact .error (.refl e)
    | ok a => exact .ok rfl
  | some _ => exact ⟨.error (.persistence _ _), rfl⟩

/-- Cache calls that fail alike are answered alike. -/
theorem endCache_alike (call : CacheCall) {failure failure' : Option CacheError}
    (h : SameFailure failure failure') (w : World) :
    Together SameOrFailed (w.endCache call failure) (w.endCache call failure') := by
  cases h with
  | none => exact ⟨.ok rfl, rfl⟩
  | some _ => exact ⟨.error trivial, rfl⟩

/-- A time limit cuts off both calls or neither. -/
theorem limited_alike {fate fate' : CacheFate} (h : fate.Alike fate') (limit : Nat) :
    (fate.limited limit).1 = (fate'.limited limit).1
      ∧ SameFailure (fate.limited limit).2 (fate'.limited limit).2 := by
  cases h with
  | stalls => exact ⟨rfl, .some trivial⟩
  | ends delay h =>
    simp only [CacheFate.limited]
    split
    · exact ⟨rfl, h⟩
    · exact ⟨rfl, .some trivial⟩

/-! ## One operation -/

variable (deadline) in
/-- Alike operations run alike. -/
theorem run_alike (hc : c.Alike c') {op op' : Operation α} (h : op.Alike R op') (w : World) :
    Together (Option.Rel R) (run c deadline op w) (run c' deadline op' w) := by
  induction h generalizing w with
  | done h => exact ⟨.some h, rfl⟩
  | gauge _ ih => exact ih _
  | @store call next next' _ ih =>
    have hfate : (c.store w.storeCalls.length call).Alike (c'.store w.storeCalls.length call) :=
      hc.store _ call
    simp only [run, World.noteStore]
    rw [hfate.delay_eq]
    generalize World.pause deadline _ _ = paused
    obtain ⟨_ | _, w₁⟩ := paused
    · -- both are cut off while the call waits
      exact ⟨.none, rfl⟩
    · have hend := endStore_alike hc call hfate.failure w₁
      simp only
      rw [hend.world_eq]
      exact ih _ _ hend.value _
  | @cache limit call next next' _ ih =>
    obtain ⟨hdelay, hfailure⟩ := limited_alike (hc.cache w.cacheCalls.length call) limit
    simp only [run, World.noteCache]
    rw [hdelay]
    generalize World.pause deadline _ _ = paused
    obtain ⟨_ | _, w₁⟩ := paused
    · exact ⟨.none, rfl⟩
    · have hend := endCache_alike call hfailure w₁
      simp only
      rw [hend.world_eq]
      exact ih _ _ hend.value _

/-! ## A page and its count

The count may be under way with a failure to come, so its state is alike and not the same. -/

/-- States of the count that differ at most in what its failure will say. -/
inductive CountState.Alike : CountState → CountState → Prop where
  | waiting : Alike .waiting .waiting
  | asked (due : Nat) {failure failure' : Option String} (h : SameFailure failure failure') :
      Alike (.asked due failure) (.asked due failure')
  | counted (total : Int64) : Alike (.counted total) (.counted total)

/-- Waits of the page that come to the same. -/
inductive Waited.Alike : Waited → Waited → Prop where
  | cutOff (w : World) : Alike (.cutOff w) (.cutOff w)
  | failed {e e' : TaskError} (h : e.Alike e') (w : World) : Alike (.failed e w) (.failed e' w)
  | arrived {s s' : CountState} (h : s.Alike s') (turn : Turn) (looked : Bool) (w : World) :
      Alike (.over s turn looked w) (.over s' turn looked w)

variable (filter : Filter) {s s' : CountState}

theorem endCount_alike (hc : c.Alike c') {failure failure' : Option String}
    (h : SameFailure failure failure') (w : World) :
    Together (Agree TaskError.Alike CountState.Alike) (endCount c filter failure w)
      (endCount c' filter failure' w) := by
  have hend := endStore_alike hc (.countFiltered filter) h w
  unfold endCount
  generalize w.endStore c (.countFiltered filter) failure = ended at hend ⊢
  generalize w.endStore c' (.countFiltered filter) failure' = ended' at hend ⊢
  obtain ⟨reply, w₁⟩ := ended
  obtain ⟨reply', w₁'⟩ := ended'
  obtain ⟨hreply, hworld⟩ := hend
  cases hworld
  cases hreply with
  | ok htotal =>
    cases htotal
    exact ⟨.ok (.counted _), rfl⟩
  | error herror => exact ⟨.error herror, rfl⟩

theorem lookAtCount_alike (hc : c.Alike c') (hs : s.Alike s') (w : World) :
    Together (Agree TaskError.Alike CountState.Alike) (lookAtCount c filter s w)
      (lookAtCount c' filter s' w) := by
  cases hs with
  | waiting =>
    have hnote := noteStore_alike hc (.countFiltered filter) w
    simp only [lookAtCount]
    generalize w.noteStore c (.countFiltered filter) = noted at hnote ⊢
    generalize w.noteStore c' (.countFiltered filter) = noted' at hnote ⊢
    obtain ⟨⟨delay, failure⟩, w₁⟩ := noted
    obtain ⟨⟨delay', failure'⟩, w₁'⟩ := noted'
    obtain ⟨⟨hdelay, hfailure⟩, hworld⟩ := hnote
    cases hdelay
    cases hworld
    split
    · exact endCount_alike filter hc hfailure w₁
    · exact ⟨.ok (.asked _ hfailure), rfl⟩
  | asked due h =>
    simp only [lookAtCount]
    split
    · exact endCount_alike filter hc h w
    · exact ⟨.ok (.asked due h), rfl⟩
  | counted total => exact ⟨.ok (.counted total), rfl⟩

/-- Looking at the count, unless that has been done. -/
theorem look_alike (hc : c.Alike c') (hs : s.Alike s') (looked : Bool) (w : World) :
    Together (Agree TaskError.Alike CountState.Alike)
      (if looked then (.ok s, w) else lookAtCount c filter s w)
      (if looked then (.ok s', w) else lookAtCount c' filter s' w) := by
  cases looked with
  | true => exact ⟨.ok hs, rfl⟩
  | false => exact lookAtCount_alike filter hc hs w

variable {filter}

theorem finishCount_alike (hc : c.Alike c') (hs : s.Alike s') (items : List Task) (w : World) :
    Together (Option.Rel SameButText) (finishCount c deadline filter items s w)
      (finishCount c' deadline filter items s' w) := by
  cases hs with
  | waiting => exact ⟨.none, rfl⟩
  | counted total => exact ⟨.some (.ok rfl), rfl⟩
  | asked due h =>
    simp only [finishCount]
    generalize w.waitUntil deadline due = waited
    obtain ⟨_ | _, w₁⟩ := waited
    · exact ⟨.none, rfl⟩
    · have hend := endStore_alike hc (.countFiltered filter) h w₁
      simp only
      generalize w₁.endStore c (.countFiltered filter) _ = ended at hend ⊢
      generalize w₁.endStore c' (.countFiltered filter) _ = ended' at hend ⊢
      obtain ⟨reply, w₂⟩ := ended
      obtain ⟨reply', w₂'⟩ := ended'
      obtain ⟨hreply, hworld⟩ := hend
      cases hworld
      cases hreply with
      | ok htotal =>
        cases htotal
        exact ⟨.some (.ok rfl), rfl⟩
      | error herror => exact ⟨.some (.error herror), rfl⟩

theorem arrive_alike (hc : c.Alike c') (hs : s.Alike s') (turn : Turn) (w : World) :
    (arrive c filter s turn w).Alike (arrive c' filter s' turn w) := by
  cases turn with
  | page => exact .arrived hs _ _ w
  | count =>
    have hlook := lookAtCount_alike filter hc hs w
    simp only [arrive]
    generalize lookAtCount c filter s w = looks at hlook ⊢
    generalize lookAtCount c' filter s' w = looks' at hlook ⊢
    obtain ⟨result, w₁⟩ := looks
    obtain ⟨result', w₁'⟩ := looks'
    obtain ⟨hresult, hworld⟩ := hlook
    cases hworld
    cases hresult with
    | ok hs => exact .arrived hs _ _ w₁
    | error herror => exact .failed herror w₁

/-- Waiting for the page without the count in between. -/
theorem goOn_alike (hc : c.Alike c') (hs : s.Alike s') (due : Nat) (turn : Turn) (w : World) :
    Waited.Alike
      (match w.waitUntil deadline due with
        | (false, w) => .cutOff w
        | (true, w) => arrive c filter s turn w)
      (match w.waitUntil deadline due with
        | (false, w) => .cutOff w
        | (true, w) => arrive c' filter s' turn w) := by
  generalize w.waitUntil deadline due = waited
  obtain ⟨_ | _, w₁⟩ := waited
  · exact .cutOff w₁
  · exact arrive_alike hc hs turn w₁

theorem waitForPage_alike (hc : c.Alike c') (hs : s.Alike s') (turn : Turn) (looked : Bool)
    (delay : Nat) (w : World) :
    (waitForPage c deadline filter s turn looked delay w).Alike
      (waitForPage c' deadline filter s' turn looked delay w) := by
  have hlook := look_alike filter hc hs looked w
  unfold waitForPage
  simp only
  generalize (if looked = true then (Except.ok s, w) else lookAtCount c filter s w) = looks
    at hlook ⊢
  generalize (if looked = true then (Except.ok s', w) else lookAtCount c' filter s' w) = looks'
    at hlook ⊢
  obtain ⟨result, w₁⟩ := looks
  obtain ⟨result', w₁'⟩ := looks'
  obtain ⟨hresult, hworld⟩ := hlook
  cases hworld
  cases hresult with
  | error herror => exact .failed herror w₁
  | ok hs =>
    cases hs with
    | waiting => exact goOn_alike hc .waiting _ _ w₁
    | counted total => exact goOn_alike hc (.counted total) _ _ w₁
    | @asked due failure failure' h =>
      simp only
      by_cases hdue : due < w.timer + delay
      · -- the count is due on the way
        rw [if_pos hdue, if_pos hdue]
        generalize w₁.waitUntil deadline due = waited
        obtain ⟨_ | _, w₂⟩ := waited
        · exact .cutOff w₂
        · have hend := endCount_alike filter hc h w₂
          simp only
          generalize endCount c filter failure w₂ = ended at hend ⊢
          generalize endCount c' filter failure' w₂ = ended' at hend ⊢
          obtain ⟨result, w₃⟩ := ended
          obtain ⟨result', w₃'⟩ := ended'
          obtain ⟨hresult, hworld⟩ := hend
          cases hworld
          cases hresult with
          | error herror => exact .failed herror w₃
          | ok hs => exact goOn_alike hc hs _ _ w₃
      · rw [if_neg hdue, if_neg hdue]
        exact goOn_alike hc (.asked due h) _ _ w₁

/-- A call of the page is waited for alike, if what comes after it is alike. -/
theorem pageCall_alike (hc : c.Alike c') {delay delay' : Nat} (hdelay : delay = delay')
    {rest rest' : CountState → Turn → Bool → World → PageResult}
    (hrest : ∀ {s s' : CountState}, s.Alike s' → ∀ turn looked w,
      Together (Option.Rel SameButText) (rest s turn looked w) (rest' s' turn looked w))
    (hs : s.Alike s') (turn : Turn) (looked : Bool) (w : World) :
    Together (Option.Rel SameButText) (pageCall c deadline filter delay rest s turn looked w)
      (pageCall c' deadline filter delay' rest' s' turn looked w) := by
  cases hdelay
  unfold pageCall
  split
  · exact hrest hs turn looked w
  · have hwait : (waitForPage c deadline filter s turn looked delay w).Alike
        (waitForPage c' deadline filter s' turn looked delay w) :=
      waitForPage_alike hc hs turn looked delay w
    generalize waitForPage c deadline filter s turn looked delay w = waited at hwait ⊢
    generalize waitForPage c' deadline filter s' turn looked delay w = waited' at hwait ⊢
    cases hwait with
    | cutOff w₁ => exact ⟨.none, rfl⟩
    | failed herror w₁ => exact ⟨.some (.error herror), rfl⟩
    | arrived hs turn looked w₁ => exact hrest hs turn looked w₁

variable (deadline filter) in
/-- Alike pages run alike with the count beside them. -/
theorem runPage_alike (hc : c.Alike c') {page page' : Operation (Except TaskError (List Task))}
    (h : page.Alike SameButText page') (hs : s.Alike s') (turn : Turn) (looked : Bool) (w : World) :
    Together (Option.Rel SameButText) (runPage c deadline filter page s turn looked w)
      (runPage c' deadline filter page' s' turn looked w) := by
  -- each call of the page may find the count elsewhere
  induction h generalizing s s' turn looked w with
  | gauge _ ih => exact ih hs turn looked _
  | done hresult =>
    cases hresult with
    | error herror => exact ⟨.some (.error herror), rfl⟩
    | @ok items _ hitems =>
      cases hitems
      have hlook := look_alike filter hc hs looked w
      unfold runPage
      generalize (if looked = true then (Except.ok s, w) else lookAtCount c filter s w) = looks
        at hlook ⊢
      generalize (if looked = true then (Except.ok s', w) else lookAtCount c' filter s' w) = looks'
        at hlook ⊢
      obtain ⟨result, w₁⟩ := looks
      obtain ⟨result', w₁'⟩ := looks'
      obtain ⟨hresult, hworld⟩ := hlook
      cases hworld
      cases hresult with
      | error herror => exact ⟨.some (.error herror), rfl⟩
      | ok hs => exact finishCount_alike hc hs items w₁
  | @store call next next' _ ih =>
    have hfate := (noteStore_alike hc call w).value
    rw [runPage_store, runPage_store]
    refine pageCall_alike hc hfate.delay_eq (fun hs turn looked w' => ?_) hs turn looked _
    have hend := endStore_alike hc call hfate.failure w'
    rw [hend.world_eq]
    exact ih _ _ hend.value hs turn looked _
  | @cache limit call next next' _ ih =>
    have hfate : (w.noteCache c call).1.Alike (w.noteCache c' call).1 := hc.cache _ call
    obtain ⟨hdelay, hfailure⟩ := limited_alike hfate limit
    rw [runPage_cache, runPage_cache]
    refine pageCall_alike hc hdelay (fun hs turn looked w' => ?_) hs turn looked _
    have hend := endCache_alike call hfailure w'
    rw [hend.world_eq]
    exact ih _ _ hend.value hs turn looked _

variable (deadline) in
/-- A blind activity comes to the same under conditions that fail alike. -/
theorem runActivity_alike (hc : c.Alike c') {a : Activity α} (h : a.Blind) (w : World) :
    runActivity c deadline a w = runActivity c' deadline a w := by
  unfold runActivity
  split
  · rfl
  · cases h with
    | @single op h =>
      have hrun := run_alike deadline hc h w
      rcases hran : run c deadline op w with ⟨value, w₁⟩
      rcases hran' : run c' deadline op w with ⟨value', w₁'⟩
      rw [hran, hran'] at hrun
      obtain ⟨hvalue, hworld⟩ := hrun
      cases hworld
      cases hvalue with
      | none => simp only [hran, hran']
      | some heq =>
        cases heq
        simp only [hran, hran']
    | @pair page filter combine hpage hcombine =>
      have hrun := runPage_alike deadline filter hc hpage .waiting .page false w
      simp only
      generalize runPage c deadline filter page .waiting .page false w = ran at hrun ⊢
      generalize runPage c' deadline filter page .waiting .page false w = ran' at hrun ⊢
      obtain ⟨value, w₁⟩ := ran
      obtain ⟨value', w₁'⟩ := ran'
      obtain ⟨hvalue, hworld⟩ := hrun
      cases hworld
      cases hvalue with
      | none => rfl
      | some hresult =>
        simp only
        rw [hcombine _ _ hresult]

end Run

end TaskBoard
