import TaskBoard.Cache.Key
import TaskBoard.Cache.Memory
import TaskBoard.Cache.Remote
import TaskBoard.Proofs.Keyed
import TaskBoard.Proofs.Text.Numeral
import Mathlib.Data.List.Basic

/-!
# Flushing the lists that a server holds

A flush asks a key-value server for the keys of the lists, batch by batch, and drops each batch. The
server may name no key in a batch, one key twice, or keys that are gone; it promises that a walk
from cursor zero to cursor zero names every list key that is there all along.

* `perform_takes`: what is sent over the wire, and that a walk ends with the answers that there are;
* `flushes_of_takes`: with the answers of a server, the walk goes through the batches in rounds;
* `cleared_of_flushes`: what the rounds leave of the keys;
* `flush_clears_lists`: the three together, for every server and all answers that it may give.
-/

namespace TaskBoard.Remote

open Text

/-! ## Talks over a wire -/

/-- A command and the answer to it. -/
structure Exchange where
  command : Command
  answer : Except Net.Refusal Reply

/-- Commands that are sent over a wire one after another, and the answers to them. -/
inductive Talks : CacheWire → List Exchange → CacheWire → Prop where
  | nil (w : CacheWire) : Talks w [] w
  | cons {w w' : CacheWire} {talk : List Exchange} (c : Command)
      (h : Talks (w.send c).2 talk w') : Talks w (⟨c, (w.send c).1⟩ :: talk) w'

theorem unused_send (w : CacheWire) (c : Command) : (w.send c).2.unused = w.unused - 1 := by
  obtain ⟨link, sent⟩ := w
  cases link with
  | down reason => rfl
  | up answers => cases answers <;> simp [Net.Wire.send, Net.Wire.unused]

/-- Without answers left, a command is refused. -/
theorem send_of_unused_eq_zero {w : CacheWire} (h : w.unused = 0) (c : Command) :
    ∃ refusal, (w.send c).1 = .error refusal := by
  obtain ⟨link, sent⟩ := w
  cases link with
  | down reason => exact ⟨_, rfl⟩
  | up answers =>
    have hnil : answers = [] := List.length_eq_zero_iff.1 h
    rw [hnil]
    exact ⟨.closed, rfl⟩

/-- Over a link that is up the commands of a talk are what is sent, in their order. -/
theorem Talks.sent_eq {w w' : CacheWire} {talk : List Exchange} (h : Talks w talk w')
    {answers : List (Option Reply)} (hup : w.link = .up answers) :
    w'.sent = (talk.map Exchange.command).reverse ++ w.sent := by
  -- a command is put before those sent earlier, and the link stays up
  induction h generalizing answers with
  | nil => rfl
  | @cons w w' talk c _ ih =>
    obtain ⟨link, sent⟩ := w
    subst hup
    cases answers with
    | nil => simp [ih rfl, Net.Wire.send]
    | cons a answers => simp [ih rfl, Net.Wire.send]

/-- A wire gives the same answers to the same commands. -/
theorem Talks.unique {w w₁ w₂ : CacheWire} {talk₁ talk₂ : List Exchange} (h₁ : Talks w talk₁ w₁)
    (h₂ : Talks w talk₂ w₂) (hcommands : talk₁.map Exchange.command = talk₂.map Exchange.command) :
    talk₁ = talk₂ := by
  induction h₁ generalizing talk₂ with
  | nil => exact (List.map_eq_nil_iff.1 hcommands.symm).symm
  | cons c _ ih =>
    cases h₂ with
    | nil => cases hcommands
    | cons c₂ h₂ =>
      obtain ⟨rfl, hrest⟩ := List.cons.inj hcommands
      rw [ih h₂ hrest]

/-! ## The talk of a walk -/

/-- What is next after the answer to the command of a step. -/
def Walk.after (step : Walk) (answer : Except Net.Refusal Reply) :
    Except CacheError (Walk ⊕ Nat) :=
  ((answer.mapError unanswered).bind Reply.check).bind step.next

/-- A walk goes on from a step with these exchanges to this result. -/
def Takes : Walk → List Exchange → Except CacheError Nat → Prop
  | _, [], _ => False
  | step, x :: talk, result =>
    x.command = step.command listKeyPrefix
      ∧ match step.after x.answer with
        | .error e => talk = [] ∧ result = .error e
        | .ok (.inr n) => talk = [] ∧ result = .ok n
        | .ok (.inl step) => Takes step talk result

/-- One step of a walk, by what is next after the answer. -/
theorem walk_succ (fuel : Nat) (step : Walk) (w : CacheWire) :
    walk listKeyPrefix (fuel + 1) step w
      = match step.after (w.send (step.command listKeyPrefix)).1 with
        | .error e => (.error e, (w.send (step.command listKeyPrefix)).2)
        | .ok (.inr n) => (.ok n, (w.send (step.command listKeyPrefix)).2)
        | .ok (.inl step') =>
          walk listKeyPrefix fuel step' (w.send (step.command listKeyPrefix)).2 := by
  rw [walk, send, Walk.after]
  generalize w.send (step.command listKeyPrefix) = sent
  obtain ⟨answer, w⟩ := sent
  dsimp only
  cases (answer.mapError unanswered).bind Reply.check with
  | error e => rfl
  | ok r => rfl

/-- Without fuel there are no answers either, and a walk fails. -/
theorem walk_zero {w : CacheWire} (h : w.unused = 0) (step : Walk) :
    ∃ e, step.after (w.send (step.command listKeyPrefix)).1 = .error e
      ∧ walk listKeyPrefix 0 step w = (.error e, (w.send (step.command listKeyPrefix)).2) := by
  obtain ⟨refusal, hrefused⟩ := send_of_unused_eq_zero h (step.command listKeyPrefix)
  refine ⟨unanswered refusal, ?_, ?_⟩
  · rw [hrefused]
    rfl
  · rw [walk, send]
    dsimp only
    rw [hrefused]
    rfl

/-- With fuel for all answers a walk ends, and what it sends is told by its steps alone. -/
theorem walk_takes (fuel : Nat) (step : Walk) (w : CacheWire) (hfuel : w.unused ≤ fuel) :
    ∃ talk, Talks w talk (walk listKeyPrefix fuel step w).2
      ∧ Takes step talk (walk listKeyPrefix fuel step w).1 := by
  -- a step uses up an answer, so the fuel lasts as long as the answers
  induction fuel generalizing step w with
  | zero =>
    obtain ⟨e, hafter, hwalk⟩ := walk_zero (Nat.le_zero.1 hfuel) step
    rw [hwalk]
    refine ⟨_, .cons _ (.nil _), rfl, ?_⟩
    simp [hafter]
  | succ fuel ih =>
    rw [walk_succ]
    cases hafter : step.after (w.send (step.command listKeyPrefix)).1 with
    | error e =>
      refine ⟨_, .cons _ (.nil _), rfl, ?_⟩
      simp [hafter]
    | ok next =>
      cases next with
      | inr n =>
        refine ⟨_, .cons _ (.nil _), rfl, ?_⟩
        simp [hafter]
      | inl step' =>
        have hless : (w.send (step.command listKeyPrefix)).2.unused ≤ fuel := by
          rw [unused_send]
          omega
        obtain ⟨talk, htalks, htakes⟩ := ih step' _ hless
        refine ⟨_, .cons _ htalks, rfl, ?_⟩
        simpa only [hafter] using htakes

/-- A flush is a walk from its start, over all answers that there are. -/
theorem perform_takes (w : CacheWire) :
    ∃ talk, Talks w talk (perform (.invalidate listKeyPrefix) w).2
      ∧ Takes .start talk (perform (.invalidate listKeyPrefix) w).1 :=
  walk_takes w.unused .start w (Nat.le_refl _)

/-! ## The server -/

/-- Whether a key is that of a list. -/
def isList (key : String) : Bool := MemoryCache.startsWith listKeyPrefix key

/-- Asks for the batch of list keys at a cursor. -/
def scanCommand (cursor : Nat) : Command :=
  ["SCAN", natText cursor, "MATCH", "tasks:list:*", "COUNT", "100"]

/-- Drops keys. -/
def deleteCommand (keys : List String) : Command := "DEL" :: keys

/-- A batch of keys and the cursor to go on with. -/
def scanReply (next : Nat) (batch : List String) : Reply :=
  .array [.bulk (natText next), .array (batch.map .bulk)]

/-- An answer that is a failure, as this error. -/
inductive Fails : Except Net.Refusal Reply → CacheError → Prop where
  | refused (refusal : Net.Refusal) : Fails (.error refusal) (unanswered refusal)
  | error (message : String) : Fails (.ok (.error message)) (.command message)

/-- What a server holds, and how far a walk over its keys has come. -/
structure Keyspace (α : Type) where
  held : Keyed α
  /-- Numbers in replies are signed words. -/
  few : held.size < 2 ^ 63
  /-- The cursor handed out last, and all keys named since cursor zero. -/
  scan : Option (Nat × List String) := none

namespace Keyspace

variable {α : Type}

/-- The keys that have been named on the way to a cursor: none at the start of a walk. It is not
known what was named before a cursor that is not the one handed out last. -/
def named (s : Keyspace α) (cursor : Nat) : Option (List String) :=
  if cursor = 0 then some []
  else (s.scan.filter fun (last, _) => last = cursor).map Prod.snd

/-- The server after a batch has been handed out. -/
def scanned (s : Keyspace α) (cursor next : Nat) (batch : List String) : Keyspace α :=
  { s with scan := (s.named cursor).map fun keys => (next, keys ++ batch) }

/-- The server after keys have been dropped. -/
def without (s : Keyspace α) (keys : List String) : Keyspace α where
  held := s.held.filter fun k _ => !keys.contains k
  few := Nat.lt_of_le_of_lt (List.length_filter_le _ _) s.few
  scan := s.scan

theorem without_nil (s : Keyspace α) : s.without [] = s := by
  obtain ⟨⟨entries, nodup⟩, few, scan⟩ := s
  simp [without, Keyed.filter]

/-- How many of the keys are held, each counted once. -/
def count (s : Keyspace α) (keys : List String) : Nat :=
  (s.held.filter fun k _ => keys.contains k).size

theorem count_nil (s : Keyspace α) : s.count [] = 0 := by
  show (s.held.entries.filter fun _ => false).length = 0
  rw [List.filter_false]
  rfl

/-- How many list keys are held. -/
def lists (s : Keyspace α) : Nat := (s.held.filter fun k _ => isList k).size

end Keyspace

/-- What a server may answer to a command, and what it then holds. -/
inductive Answers {α : Type} (s : Keyspace α) :
    Command → Except Net.Refusal Reply → Keyspace α → Prop where
  /-- A batch holds list keys only. With the last one every list key that is held has been named. -/
  | scan (cursor next : Nat) (batch : List String) (hnext : next < 2 ^ 64)
      (hlists : ∀ k ∈ batch, isList k = true)
      (hall : next = 0 → ∀ keys, s.named cursor = some keys →
        ∀ k, s.held.contains k = true → isList k = true → k ∈ keys ++ batch) :
      Answers s (scanCommand cursor) (.ok (scanReply next batch)) (s.scanned cursor next batch)
  /-- Keys are dropped, and the answer tells how many of them there were. -/
  | delete (keys : List String) :
      Answers s (deleteCommand keys) (.ok (.integer (s.count keys))) (s.without keys)
  /-- A command fails, and nothing is done. -/
  | fails (c : Command) {answer : Except Net.Refusal Reply} {e : CacheError}
      (h : Fails answer e) : Answers s c answer s
  /-- Dropping keys fails when some of them are gone already. -/
  | failsLate (keys : List String) {gone : List String} {answer : Except Net.Refusal Reply}
      {e : CacheError} (hgone : gone ⊆ keys) (h : Fails answer e) :
      Answers s (deleteCommand keys) answer (s.without gone)

/-- What a server may answer to commands one after another, when nobody else writes. -/
inductive Serves {α : Type} : Keyspace α → List Exchange → Keyspace α → Prop where
  | nil (s : Keyspace α) : Serves s [] s
  | cons {s s₁ s' : Keyspace α} {x : Exchange} {talk : List Exchange}
      (h : Answers s x.command x.answer s₁) (hrest : Serves s₁ talk s') : Serves s (x :: talk) s'

/-! ## One answer -/

theorem Fails.after {answer : Except Net.Refusal Reply} {e : CacheError} (h : Fails answer e)
    (step : Walk) : step.after answer = .error e := by
  cases h <;> rfl

theorem toNumber_natText {n : Nat} (hn : n < 2 ^ 64) :
    (Reply.bulk (natText n)).toNumber = .ok n := by
  have hn' : n < 18446744073709551616 := hn
  simp [Reply.toNumber, natText, readUnsigned?_natDigits, hn']

theorem toTexts_bulk (batch : List String) :
    (Reply.array (batch.map .bulk)).toTexts = .ok batch := by
  rw [Reply.toTexts]
  induction batch with
  | nil => rfl
  | cons k batch ih =>
    rw [List.map_cons, List.mapM_cons, ih]
    rfl

/-- After a batch its keys are dropped, if there are any. -/
theorem after_scan (cursor removed : Nat) {next : Nat} (hnext : next < 2 ^ 64)
    (batch : List String) :
    (Walk.scan cursor removed).after (.ok (scanReply next batch))
      = .ok (if batch.isEmpty then Walk.resume next removed
          else .inl (.drop batch next removed)) := by
  show (scanReply next batch).toBatch.bind _ = _
  rw [scanReply, Reply.toBatch, toNumber_natText hnext, toTexts_bulk]
  rfl

/-- After the drop of a batch its number of keys is added. -/
theorem after_delete (batch : List String) (next removed : Nat) {n : Nat} (hn : n < 2 ^ 64) :
    (Walk.drop batch next removed).after (.ok (.integer n))
      = .ok (Walk.resume next (removed + n)) := by
  have hnumber : (Reply.integer n).toNumber = .ok n := by
    rw [Reply.toNumber]
    congr 1
    omega
  show (Reply.integer n).toNumber.bind (fun n => .ok (Walk.resume next (removed + n))) = _
  rw [hnumber]
  rfl

section Inversion

variable {α : Type} {s s' : Keyspace α} {answer : Except Net.Refusal Reply}

theorem natText_inj {m n : Nat} (h : natText m = natText n) : m = n :=
  natDigits_inj (String.ofList_inj.1 h)

/-- The answer to a scan is a batch or a failure. -/
theorem Answers.of_scan {cursor : Nat} (h : Answers s (scanCommand cursor) answer s') :
    (∃ e, Fails answer e ∧ s' = s)
      ∨ ∃ next batch, next < 2 ^ 64 ∧ (∀ k ∈ batch, isList k = true)
          ∧ (next = 0 → ∀ keys, s.named cursor = some keys →
            ∀ k, s.held.contains k = true → isList k = true → k ∈ keys ++ batch)
          ∧ answer = .ok (scanReply next batch) ∧ s' = s.scanned cursor next batch := by
  -- a command that scans drops nothing, and it tells its cursor
  generalize hc : scanCommand cursor = c at h
  cases h with
  | scan cursor' next batch hnext hlists hall =>
    have hcursor : cursor' = cursor := natText_inj (by simp [scanCommand] at hc; exact hc.symm)
    rw [hcursor] at hall ⊢
    exact .inr ⟨next, batch, hnext, hlists, hall, rfl, rfl⟩
  | fails _ hfails => exact .inl ⟨_, hfails, rfl⟩
  | delete keys => simp [scanCommand, deleteCommand] at hc
  | failsLate keys => simp [scanCommand, deleteCommand] at hc

/-- The answer to a drop is the number of keys that were held, or a failure after which some of the
keys are gone. -/
theorem Answers.of_delete {keys : List String} (h : Answers s (deleteCommand keys) answer s') :
    (∃ e gone, gone ⊆ keys ∧ Fails answer e ∧ s' = s.without gone)
      ∨ answer = .ok (.integer (s.count keys)) ∧ s' = s.without keys := by
  generalize hc : deleteCommand keys = c at h
  cases h with
  | scan => simp [scanCommand, deleteCommand] at hc
  | fails _ hfails =>
    exact .inl ⟨_, [], List.nil_subset _, hfails, s.without_nil.symm⟩
  | delete keys' =>
    obtain ⟨-, rfl⟩ := List.cons.inj hc
    exact .inr ⟨rfl, rfl⟩
  | failsLate keys' hgone hfails =>
    obtain ⟨-, rfl⟩ := List.cons.inj hc
    exact .inl ⟨_, _, hgone, hfails, rfl⟩

end Inversion

/-! ## Rounds -/

/-- The exchange that drops a batch, and the number in its answer. There is none for a batch
without keys. -/
inductive Drops : List String → List Exchange → Nat → Prop where
  | nothing : Drops [] [] 0
  | keys (k : String) (ks : List String) (n : Nat) :
      Drops (k :: ks) [⟨deleteCommand (k :: ks), .ok (.integer n)⟩] n

/-- A flush in rounds, from a cursor on and with so many keys removed before. A round asks for the
batch at the cursor and drops just this batch. It is the last one if the next cursor is zero, and
otherwise the next round is at the next cursor. A failure is the end. -/
inductive Flushes : Nat → Nat → List Exchange → Except CacheError Nat → Prop where
  | scanFails (cursor removed : Nat) {answer : Except Net.Refusal Reply} {e : CacheError}
      (h : Fails answer e) : Flushes cursor removed [⟨scanCommand cursor, answer⟩] (.error e)
  | deleteFails (cursor removed next : Nat) {batch : List String}
      {answer : Except Net.Refusal Reply} {e : CacheError} (hbatch : batch ≠ [])
      (h : Fails answer e) :
      Flushes cursor removed
        [⟨scanCommand cursor, .ok (scanReply next batch)⟩, ⟨deleteCommand batch, answer⟩] (.error e)
  | last (cursor removed : Nat) {batch : List String} {drop : List Exchange} {n : Nat}
      (hdrop : Drops batch drop n) :
      Flushes cursor removed (⟨scanCommand cursor, .ok (scanReply 0 batch)⟩ :: drop)
        (.ok (removed + n))
  | more (cursor removed : Nat) {next : Nat} {batch : List String} {drop talk : List Exchange}
      {n : Nat} {result : Except CacheError Nat} (hnext : next ≠ 0) (hdrop : Drops batch drop n)
      (hrest : Flushes next (removed + n) talk result) :
      Flushes cursor removed (⟨scanCommand cursor, .ok (scanReply next batch)⟩ :: (drop ++ talk))
        result

/-- What follows the drop of a batch: nothing after cursor zero, else the next rounds. -/
inductive Rest : Nat → Nat → List Exchange → Except CacheError Nat → Prop where
  | done (removed : Nat) : Rest 0 removed [] (.ok removed)
  | rounds {next removed : Nat} {talk : List Exchange} {result : Except CacheError Nat}
      (hnext : next ≠ 0) (h : Flushes next removed talk result) : Rest next removed talk result

/-- A batch, its drop and the rest are a round and what follows it. -/
theorem Rest.flushes {cursor removed next n : Nat} {batch : List String}
    {drop talk : List Exchange} {result : Except CacheError Nat} (hdrop : Drops batch drop n)
    (h : Rest next (removed + n) talk result) :
    Flushes cursor removed (⟨scanCommand cursor, .ok (scanReply next batch)⟩ :: (drop ++ talk))
      result := by
  cases h with
  | done =>
    rw [List.append_nil]
    exact .last cursor removed hdrop
  | rounds hnext h => exact .more cursor removed hnext hdrop h

/-- What the exchanges of a walk from a step on are, in rounds. -/
def InRounds : Walk → List Exchange → Except CacheError Nat → Prop
  | .scan cursor removed, talk, result => Flushes cursor removed talk result
  | .drop batch next removed, talk, result =>
    (∃ answer e, Fails answer e ∧ talk = [⟨deleteCommand batch, answer⟩] ∧ result = .error e)
      ∨ ∃ (n : Nat) (rest : List Exchange), talk = ⟨deleteCommand batch, .ok (.integer n)⟩ :: rest
          ∧ Rest next (removed + n) rest result

/-- What a walk does with no more than the answers that a server may give, step by step. -/
theorem inRounds_of_takes {α : Type} {step : Walk} {talk : List Exchange}
    {result : Except CacheError Nat} (h : Takes step talk result) {s s' : Keyspace α}
    (hs : Serves s talk s') : InRounds step talk result := by
  -- behind the first exchange there is again what a walk takes, from the next step on
  induction talk generalizing step s with
  | nil => cases h
  | cons x talk ih =>
    obtain ⟨command, answer⟩ := x
    obtain ⟨rfl, hnext⟩ := h
    -- the cursor alone decides whether another round follows
    have hresume : ∀ {s₁ : Keyspace α} {next removed : Nat}, Serves s₁ talk s' →
        step.after answer = .ok (Walk.resume next removed) → Rest next removed talk result := by
      intro s₁ next removed hs₁ hafter
      by_cases hzero : next = 0
      · subst hzero
        simp only [hafter, Walk.resume, if_true] at hnext
        obtain ⟨rfl, rfl⟩ := hnext
        exact .done removed
      · simp only [hafter, Walk.resume, hzero, if_false] at hnext
        exact .rounds hzero (ih hnext hs₁)
    cases hs with
    | @cons _ s₁ _ _ _ hanswer hs =>
    cases step with
    | scan cursor removed =>
      rcases Answers.of_scan hanswer with
        ⟨e, hfails, -⟩ | ⟨next, batch, hsmall, -, -, rfl, -⟩
      · simp only [hfails.after] at hnext
        obtain ⟨rfl, rfl⟩ := hnext
        exact .scanFails cursor removed hfails
      · have hafter := after_scan cursor removed hsmall batch
        cases batch with
        -- nothing is sent for an empty batch
        | nil => exact (hresume hs hafter).flushes .nothing
        | cons k ks =>
          simp only [hafter, List.isEmpty_cons, Bool.false_eq_true, if_false] at hnext
          rcases ih hnext hs with ⟨answer, e, hfails, rfl, rfl⟩ | ⟨n, rest, rfl, hrest⟩
          · exact .deleteFails cursor removed next (List.cons_ne_nil k ks) hfails
          · exact hrest.flushes (.keys k ks n)
    | drop batch next removed =>
      rcases Answers.of_delete hanswer with ⟨e, gone, -, hfails, -⟩ | ⟨rfl, -⟩
      · simp only [hfails.after] at hnext
        obtain ⟨rfl, rfl⟩ := hnext
        exact .inl ⟨answer, e, hfails, rfl, rfl⟩
      · have hsmall : s.count batch < 2 ^ 64 :=
          Nat.lt_of_le_of_lt (List.length_filter_le _ _) (Nat.lt_trans s.few (by decide))
        exact .inr ⟨_, talk, rfl, hresume hs (after_delete batch next removed hsmall)⟩

/-! ## What is left -/

section Left

variable {α : Type} {s s' : Keyspace α}

@[simp] theorem get?_without (s : Keyspace α) (keys : List String) (k : String) :
    (s.without keys).held.get? k = if k ∈ keys then none else s.held.get? k := by
  rw [Keyspace.without, Keyed.get?_filter]
  by_cases hk : k ∈ keys <;> cases s.held.get? k <;> simp [hk, Option.filter]

@[simp] theorem held_scanned (s : Keyspace α) (cursor next : Nat) (batch : List String) :
    (s.scanned cursor next batch).held = s.held := rfl

/-- The list keys are those of a batch and those that are left without it. -/
theorem lists_eq {batch : List String} (hlists : ∀ k ∈ batch, isList k = true) :
    s.lists = s.count batch + (s.without batch).lists := by
  show (s.held.entries.filter fun e => isList e.1).length = _
  -- of the list keys those in the batch are all its keys, and the others are left
  rw [List.length_eq_length_filter_add fun e => batch.contains e.1]
  congr 1
  · rw [List.filter_filter]
    refine congrArg List.length (List.filter_congr fun e _ => ?_)
    by_cases hmem : e.1 ∈ batch <;> simp [hmem, hlists]
  · rw [List.filter_filter]
    show _ = ((s.held.entries.filter _).filter _).length
    rw [List.filter_filter]
    refine congrArg List.length (List.filter_congr fun e _ => ?_)
    exact Bool.and_comm _ _

/-- If all list keys are in a batch, none is left without it. -/
theorem lists_without_eq_zero {batch : List String}
    (hall : ∀ k, s.held.contains k = true → isList k = true → k ∈ batch) :
    (s.without batch).lists = 0 := by
  show ((s.held.entries.filter _).filter _).length = 0
  rw [List.filter_filter, List.length_eq_zero_iff, List.filter_eq_nil_iff]
  rintro ⟨k, value⟩ hmem
  have hheld : s.held.contains k = true := Keyed.contains_iff_mem.2 (List.mem_map.2 ⟨_, hmem, rfl⟩)
  by_cases hlist : isList k = true
  · simp [hall k hheld hlist]
  · simp [hlist]

/-- A reply tells its cursor and its batch. -/
theorem scanReply_inj {next next' : Nat} {batch batch' : List String}
    (h : scanReply next batch = scanReply next' batch') : next = next' ∧ batch = batch' := by
  simp only [scanReply, Reply.array.injEq, List.cons.injEq, Reply.bulk.injEq, and_true] at h
  obtain ⟨hnext, hbatch⟩ := h
  exact ⟨natText_inj hnext, List.map_injective_iff.2 (fun _ _ => Reply.bulk.inj) hbatch⟩

/-- What a round does to the keys: the keys of its batch, which are all those of lists, are gone,
and the number in the answer is that of the ones that were there. -/
theorem serves_round {cursor next n : Nat} {batch : List String} {drop talk : List Exchange}
    (hdrop : Drops batch drop n)
    (h : Serves s (⟨scanCommand cursor, .ok (scanReply next batch)⟩ :: (drop ++ talk)) s') :
    (∀ k ∈ batch, isList k = true)
      ∧ (next = 0 → ∀ keys, s.named cursor = some keys →
        ∀ k, s.held.contains k = true → isList k = true → k ∈ keys ++ batch)
      ∧ n = s.count batch ∧ Serves ((s.scanned cursor next batch).without batch) talk s' := by
  cases h with
  | cons hscan hrest =>
  rcases Answers.of_scan hscan with ⟨e, hfails, -⟩ | ⟨next', batch', -, hlists, hall, hreply, rfl⟩
  · cases hfails
  · obtain ⟨rfl, rfl⟩ := scanReply_inj (Except.ok.inj hreply)
    refine ⟨hlists, hall, ?_⟩
    cases hdrop with
    | nothing =>
      rw [Keyspace.without_nil]
      exact ⟨s.count_nil.symm, hrest⟩
    | keys k ks n =>
      cases hrest with
      | cons hdelete hrest =>
      rcases Answers.of_delete hdelete with ⟨e, gone, -, hfails, -⟩ | ⟨hreply, rfl⟩
      · cases hfails
      · injection hreply with hreply
        injection hreply with hn
        exact ⟨Int.ofNat.inj hn, hrest⟩

/-- What there is after a flush that has removed so many keys before. If it went well no list key is
left, the other keys are as they were, and the number counts the list keys. If it failed, a key is
as it was or is that of a list and gone. -/
def Cleared (removed : Nat) (s : Keyspace α) (result : Except CacheError Nat) (s' : Keyspace α) :
    Prop :=
  match result with
  | .ok n => n = removed + s.lists
      ∧ ∀ k, s'.held.get? k = if isList k = true then none else s.held.get? k
  | .error _ => ∀ k, s'.held.get? k = s.held.get? k ∨ isList k = true ∧ s'.held.get? k = none

/-- With the last batch the lists are cleared, if it holds all list keys that are left. -/
theorem cleared_last (removed : Nat) {batch : List String}
    (hlists : ∀ k ∈ batch, isList k = true)
    (hall : ∀ k, s.held.contains k = true → isList k = true → k ∈ batch) :
    Cleared removed s (.ok (removed + s.count batch)) (s.without batch) := by
  constructor
  · rw [lists_eq hlists, lists_without_eq_zero hall, Nat.add_zero]
  · intro k
    rw [get?_without]
    by_cases hlist : isList k = true
    · rw [if_pos hlist]
      by_cases hheld : s.held.contains k = true
      · rw [if_pos (hall k hheld hlist)]
      · have hnone : s.held.get? k = none := by simpa [Keyed.contains] using hheld
        rw [hnone, ite_self]
    · rw [if_neg hlist, if_neg fun hmem => hlist (hlists k hmem)]

/-- What clears the lists after a round clears them with the round before it. -/
theorem Cleared.round {removed : Nat} {batch : List String} {result : Except CacheError Nat}
    (hlists : ∀ k ∈ batch, isList k = true)
    (h : Cleared (removed + s.count batch) (s.without batch) result s') :
    Cleared removed s result s' := by
  cases result with
  | ok total =>
    obtain ⟨rfl, hget⟩ := h
    constructor
    · rw [lists_eq (s := s) hlists, Nat.add_assoc]
    · intro k
      rw [hget k, get?_without]
      by_cases hlist : isList k = true
      · rw [if_pos hlist, if_pos hlist]
      · rw [if_neg hlist, if_neg hlist, if_neg fun hmem => hlist (hlists k hmem)]
  | error e =>
    intro k
    have hk := h k
    rw [get?_without] at hk
    by_cases hmem : k ∈ batch
    · rw [if_pos hmem] at hk
      exact .inr ⟨hlists k hmem, hk.elim id And.right⟩
    · rwa [if_neg hmem] at hk

/-- A batch is added to what has been named on the way to its cursor. -/
theorem named_scanned {cursor next : Nat} {keys : List String} (batch : List String)
    (hnext : next ≠ 0) (h : s.named cursor = some keys) :
    (s.scanned cursor next batch).named next = some (keys ++ batch) := by
  rw [Keyspace.named, if_neg hnext, Keyspace.scanned, h]
  simp

/-- The rounds of a flush clear the lists, if no key that has been named is held any more. -/
theorem cleared_of_flushes {cursor removed : Nat} {talk : List Exchange}
    {result : Except CacheError Nat} (h : Flushes cursor removed talk result) {keys : List String}
    (hserves : Serves s talk s') (hnamed : s.named cursor = some keys)
    (hgone : ∀ k ∈ keys, s.held.get? k = none) : Cleared removed s result s' := by
  -- every round drops what it has named, so the next one begins as this one does
  induction h generalizing s keys with
  | scanFails cursor removed hfails =>
    cases hserves with
    | cons hscan hrest =>
    cases hrest
    rcases Answers.of_scan hscan with ⟨e, -, rfl⟩ | ⟨next, batch, -, -, -, rfl, -⟩
    · exact fun k => .inl rfl
    · cases hfails
  | deleteFails cursor removed next hbatch hfails =>
    cases hserves with
    | cons hscan hrest =>
    cases hrest with
    | cons hdelete hrest =>
    cases hrest
    rcases Answers.of_scan hscan with ⟨e, hfails', -⟩ | ⟨next', batch', -, hlists, -, hreply, rfl⟩
    · cases hfails'
    obtain ⟨-, rfl⟩ := scanReply_inj (Except.ok.inj hreply)
    rcases Answers.of_delete hdelete with ⟨e, gone, hbatch, -, rfl⟩ | ⟨rfl, -⟩
    · -- what is gone was in the batch
      intro k
      by_cases hk : k ∈ gone
      · exact .inr ⟨hlists k (hbatch hk), by simp [hk]⟩
      · exact .inl (by simp [hk])
    · cases hfails
  | @last cursor removed batch drop n hdrop =>
    rw [← List.append_nil drop] at hserves
    obtain ⟨hlists, hall, rfl, hrest⟩ := serves_round hdrop hserves
    cases hrest
    refine cleared_last (s := s.scanned cursor 0 batch) removed hlists fun k hheld hlist => ?_
    -- what has been named before is gone, so a key that is left is in the last batch
    rcases List.mem_append.1 (hall rfl keys hnamed k hheld hlist) with hmem | hmem
    · rw [held_scanned, Keyed.contains, hgone k hmem] at hheld
      cases hheld
    · exact hmem
  | @more cursor removed next batch drop talk n result hnext hdrop _ ih =>
    obtain ⟨hlists, -, rfl, hrest⟩ := serves_round hdrop hserves
    refine Cleared.round (s := s.scanned cursor next batch) hlists
      (ih hrest (named_scanned batch hnext hnamed) fun k hmem => ?_)
    rw [get?_without, held_scanned]
    rcases List.mem_append.1 hmem with hmem | hmem
    · rw [hgone k hmem, ite_self]
    · rw [if_pos hmem]

end Left

/-! ## The flush -/

/-- A flush of the lists, over any wire. What it sends is a talk, whatever the answers are. If they
are those of a server at which nobody else writes, the flush goes in rounds from cursor zero on, and
clears the lists. -/
theorem flush_clears_lists (w : CacheWire) :
    let flushed := perform (.invalidate listKeyPrefix) w
    ∃ talk, Talks w talk flushed.2
      ∧ (∀ answers, w.link = .up answers →
          flushed.2.sent = (talk.map Exchange.command).reverse ++ w.sent)
      ∧ ∀ (α : Type) (s s' : Keyspace α), Serves s talk s' →
          Flushes 0 0 talk flushed.1 ∧ Cleared 0 s flushed.1 s' := by
  intro flushed
  obtain ⟨talk, htalks, htakes⟩ := perform_takes w
  refine ⟨talk, htalks, fun answers hup => htalks.sent_eq hup, fun α s s' hserves => ?_⟩
  have hflushes : Flushes 0 0 talk flushed.1 := inRounds_of_takes htakes hserves
  -- nothing has been named at cursor zero
  exact ⟨hflushes, cleared_of_flushes hflushes hserves rfl (List.forall_mem_nil _)⟩

/-- A server with two list keys and another key. -/
def twoLists : Keyspace Nat where
  held := ⟨[("tasks:list:a", 1), ("tasks:list:b", 2), ("session", 3)], by decide⟩
  few := by decide

/-- A flush of two lists in three rounds. The first batch is empty, the second one names a key
twice, and the last one names it again. -/
def threeRounds : List Exchange :=
  [⟨scanCommand 0, .ok (scanReply 7 [])⟩,
    ⟨scanCommand 7, .ok (scanReply 9 ["tasks:list:a", "tasks:list:a"])⟩,
    ⟨deleteCommand ["tasks:list:a", "tasks:list:a"], .ok (.integer 1)⟩,
    ⟨scanCommand 9, .ok (scanReply 0 ["tasks:list:a", "tasks:list:b"])⟩,
    ⟨deleteCommand ["tasks:list:a", "tasks:list:b"], .ok (.integer 1)⟩]

/-- A wire with the answers of these rounds. -/
def roundsWire : CacheWire where
  link := .up (threeRounds.map fun x => x.answer.toOption)

/-- The server after these rounds. -/
def afterRounds : Keyspace Nat :=
  let second := ["tasks:list:a", "tasks:list:a"]
  let last := ["tasks:list:a", "tasks:list:b"]
  let s := (twoLists.scanned 0 7 []).scanned 7 9 second
  ((s.without second).scanned 9 0 last).without last

theorem serves_threeRounds : Serves twoLists threeRounds afterRounds := by
  refine .cons (.scan 0 7 [] (by decide) (by decide) nofun) ?_
  refine .cons (.scan 7 9 _ (by decide) (by decide) nofun) ?_
  refine .cons (.delete _) ?_
  refine .cons (.scan 9 0 _ (by decide) (by decide) fun _ keys _ k hheld hlist => ?_) ?_
  · -- one list key is left, and the last batch holds it
    have hmem : k ∈ ["tasks:list:b", "session"] := Keyed.contains_iff_mem.1 hheld
    rcases List.mem_pair.1 hmem with rfl | rfl
    · exact List.mem_append_right _ (by decide)
    · exact absurd hlist (by decide)
  · exact .cons (.delete _) (.nil _)

/-- Two of three keys are those of lists. The flush drops them and tells of two keys, although
three were named after one of them was gone. -/
theorem flush_clears_lists_in_three_rounds :
    (perform (.invalidate listKeyPrefix) roundsWire).1 = .ok (2 : Nat)
      ∧ Serves twoLists threeRounds afterRounds
      ∧ Flushes 0 0 threeRounds (.ok 2) ∧ Cleared 0 twoLists (.ok 2) afterRounds := by
  obtain ⟨talk, htalks, hsent, hserver⟩ := flush_clears_lists roundsWire
  have hresult : (perform (.invalidate listKeyPrefix) roundsWire).1 = .ok (2 : Nat) := rfl
  have hcommands : (perform (.invalidate listKeyPrefix) roundsWire).2.sent
      = (threeRounds.map Exchange.command).reverse := rfl
  have hrounds : Talks roundsWire threeRounds
      ⟨.up [], (threeRounds.map Exchange.command).reverse⟩ :=
    .cons _ (.cons _ (.cons _ (.cons _ (.cons _ (.nil _)))))
  have htalk : talk = threeRounds := by
    refine htalks.unique hrounds (List.reverse_injective ?_)
    rw [← hcommands, hsent _ rfl]
    exact (List.append_nil _).symm
  subst htalk
  exact ⟨hresult, serves_threeRounds, hserver Nat twoLists afterRounds serves_threeRounds⟩

end TaskBoard.Remote
