import TaskBoard.Proofs.Run.Account
import TaskBoard.Service

/-!
# Contracts between operations and the world

A contract says what holds of a world between any two calls, which calls may be made for that, and
what is then known of their answers. An operation that makes no other calls leaves a world that the
contract holds of, wherever it is cut off and whatever fails, and ends with a value that what it has
been told speaks for.

* `Abides.run`, `Abides.runPage`: one operation, and a page with a count beside it;
* `Contract.Allows.runActivity`: whatever a request makes the server do.
-/

namespace TaskBoard.Run

variable {α β : Type} {c : Conditions} {deadline : Option Nat}

/-- What holds between any two calls, which calls may be made, and what their answers tell. -/
structure Contract where
  Holds : World → Prop
  May : StoreCall → Prop
  Tells : (call : StoreCall) → call.Reply → Prop
  MayCache : CacheCall → Prop
  TellsCache : (call : CacheCall) → call.Reply → Prop

/-- The contract holds on after every call that may be made, and the answer tells what it should.
Whether it holds depends on the tasks, the cached lists and the number of generated ids. -/
structure Contract.Sound (k : Contract) (c : Conditions) : Prop where
  frame : ∀ {w w' : World}, w'.table = w.table → w'.cache = w.cache → w'.ids = w.ids →
    k.Holds w → k.Holds w'
  store : ∀ {call : StoreCall} (failure : Option String) {w : World}, k.May call → k.Holds w →
    k.Holds (w.endStore c call failure).2 ∧ k.Tells call (w.endStore c call failure).1
  cache : ∀ {call : CacheCall} (failure : Option CacheError) {w : World}, k.MayCache call →
    k.Holds w → k.Holds (w.endCache call failure).2 ∧ k.TellsCache call (w.endCache call failure).1

/-- An operation that makes no other calls than it may, and ends with a value that is `good`. -/
inductive Abides (k : Contract) (good : α → Prop) : Operation α → Prop where
  | done {a : α} (hgood : good a) : Abides k good (.done a)
  | store {call : StoreCall} {next : call.Reply → Operation α} (hmay : k.May call)
      (hnext : ∀ reply, k.Tells call reply → Abides k good (next reply)) :
      Abides k good (.store call next)
  | cache {limit : Nat} {call : CacheCall} {next : call.Reply → Operation α}
      (hmay : k.MayCache call)
      (hnext : ∀ reply, k.TellsCache call reply → Abides k good (next reply)) :
      Abides k good (.cache limit call next)
  | gauge {change : GaugeChange} {next : Operation α} (hnext : Abides k good next) :
      Abides k good (.gauge change next)

variable {k : Contract} {good : α → Prop}

theorem Abides.bind {good' : β → Prop} {op : Operation α} {f : α → Operation β}
    (h : Abides k good op) (hf : ∀ a, good a → Abides k good' (f a)) :
    Abides k good' (op.bind f) := by
  induction h with
  | done hgood => exact hf _ hgood
  | store hmay _ ih => exact .store hmay ih
  | cache hmay _ ih => exact .cache hmay ih
  | gauge _ ih => exact .gauge ih

theorem Abides.mono {good' : α → Prop} {op : Operation α} (h : Abides k good op)
    (hgood : ∀ a, good a → good' a) : Abides k good' op := by
  rw [← op.bind_done]
  exact h.bind fun a ha => .done (hgood a ha)

theorem Abides.map {good' : β → Prop} {op : Operation α} {f : α → β} (h : Abides k good op)
    (hf : ∀ a, good a → good' (f a)) : Abides k good' (op.map f) :=
  h.bind fun a ha => .done (hf a ha)

/-- The contract holds of the world that is left, and the value, if there is one, is `good`. -/
def Contract.Met (k : Contract) (good : α → Prop) (ran : Option α × World) : Prop :=
  k.Holds ran.2 ∧ ∀ a, ran.1 = some a → good a

theorem Contract.Met.none {w : World} (hw : k.Holds w) : k.Met good (none, w) :=
  ⟨hw, fun _ h => nomatch h⟩

theorem Contract.Met.some {a : α} {w : World} (hw : k.Holds w) (ha : good a) :
    k.Met good (some a, w) := by
  refine ⟨hw, fun b hb => ?_⟩
  rwa [← Option.some.inj hb]

theorem Contract.Sound.same (hk : k.Sound c) {w w' : World} (h : w.SameHoldings w')
    (hw : k.Holds w) : k.Holds w' :=
  hk.frame h.table_eq h.cache_eq h.ids_eq hw

/-! ## One operation -/

/-- An operation that abides by a contract keeps it, wherever it is cut off. -/
theorem Abides.run (hk : k.Sound c) {op : Operation α} (h : Abides k good op) {w : World}
    (hw : k.Holds w) : k.Met good (run c deadline op w) := by
  induction h generalizing w with
  | done hgood => exact .some hw hgood
  | gauge _ ih => exact ih (hk.frame (w := w) rfl rfl rfl hw)
  | @store call next hmay _ ih =>
    -- while the call waits nothing changes that the contract speaks of
    have hpause := World.sameHoldings_pause deadline (w.noteStore c call).1.delay
      (w.noteStore c call).2
    unfold Run.run
    simp only
    generalize (w.noteStore c call).2.pause deadline (w.noteStore c call).1.delay = paused
      at hpause ⊢
    have hw' := hk.same ((World.sameHoldings_noteStore call w).trans hpause) hw
    obtain ⟨_ | _, w'⟩ := paused
    · exact .none hw'
    · obtain ⟨hholds, htells⟩ := hk.store (w.noteStore c call).1.failure hmay hw'
      exact ih _ htells hholds
  | @cache limit call next hmay _ ih =>
    have hpause := World.sameHoldings_pause deadline ((w.noteCache c call).1.limited limit).1
      (w.noteCache c call).2
    unfold Run.run
    simp only
    generalize (w.noteCache c call).2.pause deadline ((w.noteCache c call).1.limited limit).1
      = paused at hpause ⊢
    have hw' := hk.same ((World.sameHoldings_noteCache call w).trans hpause) hw
    obtain ⟨_ | _, w'⟩ := paused
    · exact .none hw'
    · obtain ⟨hholds, htells⟩ := hk.cache ((w.noteCache c call).1.limited limit).2 hmay hw'
      exact ih _ htells hholds

/-! ## A page with a count beside it -/

section Page

variable {filter : Filter} {good : Except TaskError (List Task) → Prop}

/-- The page that a result has, if it has one, is `good`. -/
def GoodPage (good : Except TaskError (List Task) → Prop)
    (result : Except TaskError (List Task × Int64)) : Prop :=
  ∀ items total, result = .ok (items, total) → good (.ok items)

theorem GoodPage.error (e : TaskError) : GoodPage good (.error e) :=
  fun _ _ h => nomatch h

/-- The count's answer adds nothing to a page but its total. -/
theorem met_finishCount (hk : k.Sound c) {items : List Task} (hgood : good (.ok items))
    (s : CountState) {w : World} (hw : k.Holds w) :
    k.Met (GoodPage good) (finishCount c deadline filter items s w) := by
  have hpage : ∀ total, GoodPage good (.ok (items, total)) := by
    intro total items' total' h
    cases h
    exact hgood
  refine ⟨hk.same (sameHoldings_finishCount items s w) hw, fun result hresult => ?_⟩
  cases s with
  | waiting => cases hresult
  | counted total =>
    rw [← Option.some.inj hresult]
    exact hpage total
  | asked due failure =>
    simp only [finishCount] at hresult
    generalize w.waitUntil deadline due = waited at hresult
    obtain ⟨_ | _, w'⟩ := waited
    · cases hresult
    · simp only at hresult
      generalize w'.endStore c (.countFiltered filter) failure = ended at hresult
      obtain ⟨e | total, w''⟩ := ended
      · rw [← Option.some.inj hresult]
        exact .error e
      · rw [← Option.some.inj hresult]
        exact hpage total

/-- What comes after a wait of the page, at whatever point of it the count is. -/
theorem met_waited (hk : k.Sound c) {s : CountState} {turn : Turn} {looked : Bool} {delay : Nat}
    {w : World} (hw : k.Holds w)
    {rest : CountState → Turn → Bool → World →
      Option (Except TaskError (List Task × Int64)) × World}
    (hrest : ∀ s turn looked w, k.Holds w → k.Met (GoodPage good) (rest s turn looked w)) :
    k.Met (GoodPage good) (match waitForPage c deadline filter s turn looked delay w with
      | .cutOff w => (none, w)
      | .failed e w => (some (.error e), w)
      | .over s turn looked w => rest s turn looked w) := by
  have hwait : w.SameHoldings (waitForPage c deadline filter s turn looked delay w).world :=
    sameHoldings_waitForPage s turn looked delay w
  have hw' := hk.same hwait hw
  generalize waitForPage c deadline filter s turn looked delay w = waited at hw' ⊢
  rcases waited with w' | ⟨e, w'⟩ | ⟨s, turn, looked, w'⟩
  · exact .none hw'
  · exact .some hw' (.error e)
  · exact hrest s turn looked w' hw'

/-- A page that abides by a contract keeps it, whatever the count beside it does. -/
theorem Abides.runPage (hk : k.Sound c) {page : Operation (Except TaskError (List Task))}
    (h : Abides k good page) (s : CountState) (turn : Turn) (looked : Bool) {w : World}
    (hw : k.Holds w) : k.Met (GoodPage good) (runPage c deadline filter page s turn looked w) := by
  induction h generalizing s turn looked w with
  | gauge _ ih => exact ih s turn looked (hk.frame (w := w) rfl rfl rfl hw)
  | @done result hgood =>
    cases result with
    | error e => exact .some hw (.error e)
    | ok items =>
      have hlook : w.SameHoldings (if looked then (.ok s, w) else lookAtCount c filter s w).2 :=
        sameHoldings_look looked s w
      have hw' := hk.same hlook hw
      unfold Run.runPage
      generalize (if looked = true then (Except.ok s, w) else lookAtCount c filter s w) = looks
        at hw' ⊢
      obtain ⟨e | s', w'⟩ := looks
      · exact .some hw' (.error e)
      · exact met_finishCount hk hgood s' hw'
  | @store call next hmay _ ih =>
    have hnote : k.Holds (w.noteStore c call).2 := hk.same (World.sameHoldings_noteStore call w) hw
    -- the call, once its wait is over, and what comes after it
    have hrest : ∀ s turn looked (w' : World), k.Holds w' → k.Met (GoodPage good)
        (Run.runPage c deadline filter (next (w'.endStore c call (w.noteStore c call).1.failure).1)
          s turn looked (w'.endStore c call (w.noteStore c call).1.failure).2) := by
      intro s turn looked w' hw'
      obtain ⟨hholds, htells⟩ := hk.store (w.noteStore c call).1.failure hmay hw'
      exact ih _ htells s turn looked hholds
    unfold Run.runPage
    simp only
    split
    · exact hrest s turn looked _ hnote
    · exact met_waited hk hnote hrest
  | @cache limit call next hmay _ ih =>
    have hnote : k.Holds (w.noteCache c call).2 := hk.same (World.sameHoldings_noteCache call w) hw
    have hrest : ∀ s turn looked (w' : World), k.Holds w' → k.Met (GoodPage good)
        (Run.runPage c deadline filter
          (next (w'.endCache call ((w.noteCache c call).1.limited limit).2).1) s turn looked
          (w'.endCache call ((w.noteCache c call).1.limited limit).2).2) := by
      intro s turn looked w' hw'
      obtain ⟨hholds, htells⟩ := hk.cache ((w.noteCache c call).1.limited limit).2 hmay hw'
      exact ih _ htells s turn looked hholds
    unfold Run.runPage
    simp only
    split
    · exact hrest s turn looked _ hnote
    · exact met_waited hk hnote hrest

end Page

/-! ## Activities -/

/-- The activity makes no other calls than it may, and its value is `good`. -/
def Contract.Allows (k : Contract) (good : α → Prop) : Activity α → Prop
  | .single op => Abides k good op
  | .pair page _ combine => ∃ goodPage, Abides k goodPage page
      ∧ ∀ result, GoodPage goodPage result → good (combine result)

theorem Contract.Allows.map {good' : β → Prop} {a : Activity α} {f : α → β} (h : k.Allows good a)
    (hf : ∀ a, good a → good' (f a)) : k.Allows good' (a.map f) := by
  cases a with
  | single op => exact Abides.map h hf
  | pair page filter combine =>
    obtain ⟨goodPage, hpage, hcombine⟩ := h
    exact ⟨goodPage, hpage, fun result hresult => hf _ (hcombine result hresult)⟩

/-- An activity that a contract allows keeps it, wherever it is cut off. -/
theorem Contract.Allows.runActivity (hk : k.Sound c) {a : Activity α} (h : k.Allows good a)
    {w : World} (hw : k.Holds w) : k.Met good (runActivity c deadline a w) := by
  unfold Run.runActivity
  split
  · exact .none hw
  · cases a with
    | single op => exact Abides.run hk h hw
    | pair page filter combine =>
      obtain ⟨goodPage, hpage, hcombine⟩ := h
      have hran : k.Met (GoodPage goodPage)
          (Run.runPage c deadline filter page .waiting .page false w) :=
        hpage.runPage hk .waiting .page false hw
      obtain ⟨hholds, hgood⟩ := hran
      simp only
      generalize Run.runPage c deadline filter page .waiting .page false w = ran at hholds hgood ⊢
      obtain ⟨_ | result, w'⟩ := ran
      · exact .none hholds
      · exact .some hholds (hcombine result (hgood result rfl))

end TaskBoard.Run
