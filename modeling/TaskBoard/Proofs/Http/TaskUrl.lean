import TaskBoard.Proofs.Http.Target

/-!
# The URLs of tasks

A client puts the id of a task behind the path of the tasks, under whatever path its base URL has.
An id with a segment of its own has a URL of its own. Dots alone are dropped, and so are tabs and
line ends: an id with them gets the URL of the tasks or of another task. Of a base path its last
segment is dropped if it is empty, and of two slashes alone both.

* `Net.Url.popIfEmpty_start`: what is left of the base path;
* `Net.Url.segments_of_print`: two URLs that differ in their last segments are written differently;
* `Client.ownSegment_iff`: the ids that have a segment of their own;
* `Client.taskUrl_of_dropped`: the other URL that an id with tabs or line ends gets;
* `Client.taskUrl_own`: the URLs of tasks are apart for plain ids, and only for these;
* `Client.taskUrl_of_slashes`: the base path that loses two segments.
-/

namespace TaskBoard

open Text Net Http

instance (id : String) : Decidable (Client.PlainId id) :=
  decidable_of_iff (id ≠ "" ∧ id ≠ "." ∧ id ≠ ".."
      ∧ (id.toList.all fun c => c != '\t' && c != '\n' && c != '\r') = true)
    ⟨fun ⟨hne, hdot, hdots, hall⟩ => ⟨hne, hdot, hdots, fun c hc => by
        simpa [and_assoc] using List.all_eq_true.1 hall c hc⟩,
      fun ⟨hne, hdot, hdots, hinside⟩ => ⟨hne, hdot, hdots, List.all_eq_true.2 fun c hc => by
        simpa [and_assoc] using hinside c hc⟩⟩

/-! ## Appending to a path -/

namespace Net.Url

/-- What is appended to: a path without one empty segment at its end. Of two empty segments alone
both go, because the one that is left is that of a bare slash. -/
def stem (segments : List (List Char)) : List (List Char) :=
  if segments = [[], []] then []
  else if segments.getLast? = some [] then segments.dropLast
  else segments

/-- The first segment that is appended replaces that of a bare slash. -/
theorem popIfEmpty_start (segments : List (List Char)) :
    (if popIfEmpty segments = [[]] then [] else popIfEmpty segments) = stem segments := by
  -- what is popped leaves a bare slash only of two empty segments
  match segments with
  | [] => rfl
  | [s] => by_cases hs : s = [] <;> simp [popIfEmpty, stem, hs]
  | [a, b] => by_cases ha : a = [] <;> by_cases hb : b = [] <;> simp [popIfEmpty, stem, ha, hb]
  | a :: b :: d :: rest => by_cases hlast : (d :: rest).getLast? = some [] <;>
    simp [popIfEmpty, stem, hlast]

/-- A text appended to a bare slash is appended to nothing. -/
theorem pushSegment_bare (kind : Kind) {text : List Char}
    (h : ¬ (text = ".".toList ∨ text = "..".toList)) :
    pushSegment kind [[]] text = pushSegment kind [] text := by
  rw [pushSegment, pushSegment, if_neg h, if_neg h]
  rfl

/-- A plain id is appended as the segment that stands for it, and replaces that of a bare slash. -/
theorem pushSegment_eq {id : String} (h : Client.PlainId id) (segments : List (List Char)) :
    pushSegment .special segments id.toList
      = (if segments = [[]] then [] else segments) ++ [Client.segmentOf id] := by
  by_cases hbare : segments = [[]]
  · have hdots : ¬ (id.toList = ".".toList ∨ id.toList = "..".toList) := by
      rw [String.toList_inj, String.toList_inj]
      exact not_or.2 ⟨h.ne_dot, h.ne_dots⟩
    rw [hbare, pushSegment_bare .special hdots, if_pos rfl]
    exact pushSegment_plain h (by decide)
  · rw [if_neg hbare]
    exact pushSegment_plain h hbare

/-- A path whose last segment says something is no bare slash. -/
theorem ne_bare (front : List (List Char)) {s : List Char} (hs : s ≠ []) :
    front ++ [s] ≠ [[]] := by
  intro h
  have hlast := congrArg List.getLast? h
  rw [List.getLast?_concat] at hlast
  exact hs (Option.some.inj hlast)

/-- The path of the tasks is appended to what is left of the base path. -/
theorem foldl_tasksPath (segments : List (List Char)) :
    Client.tasksPath.foldl (pushSegment .special) (popIfEmpty segments)
      = stem segments ++ Client.tasksPath := by
  have hapi : Client.PlainId "api" := by decide
  have hv1 : Client.PlainId "v1" := by decide
  have htasks : Client.PlainId "tasks" := by decide
  have hkept : [Client.segmentOf "api", Client.segmentOf "v1", Client.segmentOf "tasks"]
      = Client.tasksPath := by decide
  show pushSegment .special (pushSegment .special (pushSegment .special _ "api".toList)
    "v1".toList) "tasks".toList = _
  rw [pushSegment_eq hapi, popIfEmpty_start, pushSegment_eq hv1, if_neg (ne_bare _ (by decide)),
    pushSegment_eq htasks, if_neg (ne_bare _ (by decide)), ← hkept]
  simp

/-! ## Writing a path -/

/-- What stands before a path of several segments does not depend on the last of them. -/
theorem authorityText_eq (u : Url) {front : List (List Char)} (hfront : 2 ≤ front.length)
    (s s' : List Char) :
    authorityText { u with path := .segments (front ++ [s]) }
      = authorityText { u with path := .segments (front ++ [s']) } := by
  match front with
  | a :: b :: rest =>
    unfold authorityText
    cases u.host with
    | some host => rfl
    | none =>
      -- whether the path is kept apart is seen from its first segment
      cases a with
      | nil => rfl
      | cons c cs => rfl

/-- Two URLs that differ in their last segments only are written differently. -/
theorem segments_of_print (u : Url) {front : List (List Char)} (hfront : 2 ≤ front.length)
    {s s' : List Char} (h : print { u with path := .segments (front ++ [s]) }
      = print { u with path := .segments (front ++ [s']) }) : s = s' := by
  unfold print at h
  rw [authorityText_eq u hfront s s'] at h
  simpa [Path.text, segmentsText] using h

end Net.Url

/-! ## The URLs of a client -/

namespace Client

variable {client : Client} {id : String}

/-- What is left of the base path. -/
def stem (client : Client) : List (List Char) :=
  match client.base.path with
  | .segments segments => Url.stem segments
  | .opaqueText _ => []

/-- An id without the characters that are dropped from a segment. -/
def kept (id : String) : String :=
  String.ofList (id.toList.filter fun c => c != '\t' && c != '\n' && c != '\r')

/-- The URL of a task has one segment behind the path of the tasks, and its id is found there. -/
def OwnSegment (client : Client) (id : String) : Prop :=
  ∃ segment, (client.taskUrl id).path = .segments (client.stem ++ tasksPath ++ [segment])
    ∧ Route.decodeId segment = some id

theorem not_dots (hdot : id ≠ ".") (hdots : id ≠ "..") :
    ¬ (id.toList = ".".toList ∨ id.toList = "..".toList) := by
  rw [String.toList_inj, String.toList_inj]
  exact not_or.2 ⟨hdot, hdots⟩

/-- The segment of an id stands for it. -/
theorem decodeId_segmentOf (id : String) : Route.decodeId (segmentOf id) = some id := by
  rw [segmentOf, Route.decodeId_percentEncode (by decide), String.ofList_toList]

theorem tasks_ne_bare (front : List (List Char)) : front ++ tasksPath ≠ [[]] := by
  intro h
  have hlength := congrArg List.length h
  simp [tasksPath] at hlength

/-- A client of a server that is reached by HTTP. -/
def OverHttp (client : Client) : Prop :=
  client.base.scheme = "http".toList ∨ client.base.scheme = "https".toList

theorem OverHttp.kind_eq (h : client.OverHttp) : Url.kindOf client.base.scheme = .special := by
  rcases h with h | h
  · rw [h]
    decide
  · rw [h]
    decide

/-- The URL of the path of the tasks and texts behind it. -/
theorem url_tasks (h : client.OverHttp) (texts : List (List Char)) :
    client.url (tasksPath ++ texts) = { client.base with
      path := .segments (texts.foldl (Url.pushSegment .special) (client.stem ++ tasksPath)) } := by
  obtain ⟨base, hopaque⟩ := client
  have hkind := h.kind_eq
  obtain ⟨scheme, username, password, host, port, path, query, fragment⟩ := base
  cases path with
  | opaqueText text => cases hopaque
  | segments segments =>
    simp only [url, Url.extend, stem]
    rw [hkind, List.foldl_append, Url.foldl_tasksPath]

/-- An id of dots gets the URL of the tasks. -/
theorem taskUrl_of_dots (h : client.OverHttp) (hdots : id = "." ∨ id = "..") :
    client.taskUrl id = client.url tasksPath := by
  have htasks := url_tasks h []
  rw [List.append_nil] at htasks
  rw [taskUrl, url_tasks h, htasks]
  rcases hdots with rfl | rfl
  · rfl
  · rfl

/-- Another id is put behind the path of the tasks without its tabs and line ends. -/
theorem taskUrl_eq (h : client.OverHttp) (hdot : id ≠ ".") (hdots : id ≠ "..") :
    client.taskUrl id = { client.base with
      path := .segments
        (Url.step .special (client.stem ++ tasksPath) (segmentOf (kept id)) true) } := by
  have hchars : Url.segmentChars .special id.toList = segmentOf (kept id) := by
    rw [segmentOf, kept, String.toList_ofList]
    rfl
  rw [taskUrl, url_tasks h, List.foldl_cons, List.foldl_nil, Url.pushSegment,
    if_neg (not_dots hdot hdots), if_neg (tasks_ne_bare client.stem), hchars]

theorem kept_of_inside (h : ∀ c ∈ id.toList, c ≠ '\t' ∧ c ≠ '\n' ∧ c ≠ '\r') : kept id = id := by
  have hall : id.toList.filter (fun c => c != '\t' && c != '\n' && c != '\r') = id.toList :=
    List.filter_eq_self.2 fun c hc => by simpa [and_assoc] using h c hc
  rw [kept, hall, String.ofList_toList]

theorem inside_kept (id : String) :
    ∀ c ∈ (kept id).toList, c ≠ '\t' ∧ c ≠ '\n' ∧ c ≠ '\r' := by
  intro c hc
  rw [kept, String.toList_ofList, List.mem_filter] at hc
  simpa [and_assoc] using hc.2

/-- So it gets the URL of that shorter id, if it is plain. -/
theorem taskUrl_of_dropped (h : client.OverHttp) (hplain : PlainId (kept id)) :
    client.taskUrl id = client.taskUrl (kept id) := by
  have hne : ∀ dots, kept dots = dots → kept id ≠ dots → id ≠ dots := by
    rintro dots hkept hne rfl
    exact hne hkept
  rw [taskUrl_eq h (hne _ (by decide) hplain.ne_dot) (hne _ (by decide) hplain.ne_dots),
    taskUrl_eq h hplain.ne_dot hplain.ne_dots, kept_of_inside (inside_kept id)]

/-- A plain id is one segment behind the path of the tasks. -/
theorem taskUrl_of_plain (h : client.OverHttp) (hplain : PlainId id) :
    client.taskUrl id = { client.base with
      path := .segments (client.stem ++ tasksPath ++ [segmentOf id]) } := by
  rw [taskUrl, url_tasks h, List.foldl_cons, List.foldl_nil,
    Url.pushSegment_plain hplain (tasks_ne_bare client.stem), segmentOf]

/-- Just the plain ids have segments of their own. -/
theorem ownSegment_iff (h : client.OverHttp) (hne : id ≠ "") :
    client.OwnSegment id ↔ PlainId id := by
  constructor
  · rintro ⟨segment, hpath, hdecode⟩
    have hdot : ¬ (id = "." ∨ id = "..") := by
      intro hdots
      rw [taskUrl_of_dots h hdots, ← List.append_nil tasksPath, url_tasks h] at hpath
      simp at hpath
    obtain ⟨hdot, hdots⟩ := not_or.1 hdot
    refine ⟨hne, hdot, hdots, ?_⟩
    -- the segment that is found must be that of the id without tabs and line ends
    suffices hkept : kept id = id by
      rw [← hkept]
      exact inside_kept id
    rw [taskUrl_eq h hdot hdots] at hpath
    have hstep := Url.Path.segments.inj hpath
    unfold Url.step at hstep
    split at hstep
    · -- two dots take a segment away from the path of the tasks
      have hlength := congrArg List.length hstep
      simp [Url.shorten, tasksPath] at hlength
    · split at hstep
      · -- one dot leaves an empty segment, and no id is empty
        obtain rfl := List.singleton_inj.1 (List.append_cancel_left hstep)
        exact absurd (Option.some.inj hdecode).symm hne
      · obtain rfl := List.singleton_inj.1 (List.append_cancel_left hstep)
        exact Option.some.inj ((decodeId_segmentOf (kept id)).symm.trans hdecode)
  · intro hplain
    exact ⟨segmentOf id, by rw [taskUrl_of_plain h hplain], decodeId_segmentOf id⟩

/-- Of two plain ids each has its own URL. -/
theorem taskUrl_text_ne (h : client.OverHttp) {a b : String} (ha : PlainId a) (hb : PlainId b)
    (hne : a ≠ b) : (client.taskUrl a).text ≠ (client.taskUrl b).text := by
  intro htext
  rw [taskUrl_of_plain h ha, taskUrl_of_plain h hb] at htext
  have hfront : 2 ≤ (client.stem ++ tasksPath).length := by
    simp [tasksPath]
  have hsegment := Url.segments_of_print client.base hfront (String.ofList_inj.1 htext)
  have hdecode := decodeId_segmentOf a
  rw [hsegment, decodeId_segmentOf b] at hdecode
  exact hne (Option.some.inj hdecode).symm

/-- The path of a plain id is not that of the tasks. -/
theorem taskUrl_path_ne (h : client.OverHttp) (hplain : PlainId id) :
    (client.taskUrl id).path.text ≠ (client.url tasksPath).path.text := by
  have htasks := url_tasks h []
  rw [List.append_nil] at htasks
  rw [taskUrl_of_plain h hplain, htasks]
  simp [Url.Path.text, Url.segmentsText]

/-- At a server that is reached by HTTP the plain ids, and no others, have a segment of their own
behind the path of the tasks. The requests for two of them have different URLs, and none of them has
the path of the tasks. -/
theorem taskUrl_own (h : client.OverHttp) :
    (∀ id, id ≠ "" → (client.OwnSegment id ↔ PlainId id))
      ∧ (∀ a b, PlainId a → PlainId b → a ≠ b →
          (client.get a).url.text ≠ (client.get b).url.text
            ∧ (∀ r r', (client.update a r).url.text ≠ (client.update b r').url.text)
            ∧ (client.delete a).url.text ≠ (client.delete b).url.text)
      ∧ ∀ id, PlainId id → (client.taskUrl id).path.text ≠ (client.url tasksPath).path.text := by
  refine ⟨fun id hne => ownSegment_iff h hne, fun a b ha hb hne => ?_, fun id hplain => ?_⟩
  · have htext := taskUrl_text_ne h ha hb hne
    exact ⟨htext, fun _ _ => htext, htext⟩
  · exact taskUrl_path_ne h hplain

/-- An id with slashes, dots and a percent sign in it is a single segment under a base path. -/
theorem taskUrl_own_of_marks :
    let client : Client := ⟨{ scheme := "http".toList, host := some (.name "tasks.test".toList)
                              path := .segments ["base".toList, []] }, rfl⟩
    Client.ofText "http://tasks.test/base/" = .ok client ∧ client.OverHttp
      ∧ client.OwnSegment "a/../ü%2F"
      ∧ (client.delete "a/../ü%2F").url.text
        = "http://tasks.test/base/api/v1/tasks/a%2F..%2F%C3%BC%252F"
      ∧ (client.delete "a/../ü%2F").url.text ≠ (client.delete "ü/").url.text := by
  intro client
  have hhttp : client.OverHttp := .inl rfl
  have hmarks : PlainId "a/../ü%2F" := by decide
  have hother : PlainId "ü/" := by decide
  obtain ⟨hown, hapart, -⟩ := taskUrl_own hhttp
  obtain ⟨-, -, hdelete⟩ := hapart _ _ hmarks hother (by decide)
  exact ⟨rfl, hhttp, (hown _ hmarks.nonempty).2 hmarks, by decide +kernel, hdelete⟩

/-- It is not so that every id has a URL of its own. The id with a tab in it and the id without
have one URL, at which the task of either is deleted, and the URL of a dot is that of the tasks. -/
theorem taskUrl_shared :
    let client : Client := ⟨{ scheme := "http".toList, host := some (.name "tasks.test".toList)
                              path := .segments [[]] }, rfl⟩
    Client.ofText "http://tasks.test" = .ok client ∧ client.OverHttp
      ∧ "a\tb" ≠ "ab" ∧ "a\tb" ≠ "" ∧ "ab" ≠ ""
      ∧ (client.get "a\tb").url.text = "http://tasks.test/api/v1/tasks/ab"
      ∧ (client.get "a\tb").url = (client.get "ab").url
      ∧ (client.delete "a\tb").url = (client.delete "ab").url
      ∧ ¬ client.OwnSegment "a\tb"
      ∧ (client.delete ".").url = client.url tasksPath := by
  intro client
  have hhttp : client.OverHttp := .inl rfl
  have hkept : kept "a\tb" = "ab" := by decide
  have hplain : PlainId (kept "a\tb") := by
    rw [hkept]
    decide
  have hshared : client.taskUrl "a\tb" = client.taskUrl "ab" := by
    rw [taskUrl_of_dropped hhttp hplain, hkept]
  refine ⟨rfl, hhttp, by decide, by decide, by decide, by decide +kernel, hshared, hshared, ?_,
    taskUrl_of_dots hhttp (.inl rfl)⟩
  rw [ownSegment_iff hhttp (by decide)]
  intro hplain
  exact (hplain.inside '\t' (by decide)).1 rfl

/-- It is not so either that a base path loses at most one empty segment at its end. Two slashes
alone are lost both, so the path of the tasks is put behind nothing. -/
theorem taskUrl_of_slashes :
    let client : Client := ⟨{ scheme := "http".toList, host := some (.name "tasks.test".toList)
                              path := .segments [[], []] }, rfl⟩
    Client.ofText "http://tasks.test//" = .ok client ∧ client.OverHttp
      ∧ (client.get "a").url.path = .segments (tasksPath ++ [segmentOf "a"])
      ∧ (client.get "a").url.path ≠ .segments ([[]] ++ tasksPath ++ [segmentOf "a"])
      ∧ (client.get "a").url.text = "http://tasks.test/api/v1/tasks/a" := by
  intro client
  have hhttp : client.OverHttp := .inl rfl
  have hpath : (client.get "a").url.path = .segments (tasksPath ++ [segmentOf "a"]) := by
    show (client.taskUrl "a").path = _
    rw [taskUrl_of_plain hhttp (by decide)]
    rfl
  refine ⟨rfl, hhttp, hpath, ?_, by decide +kernel⟩
  rw [hpath]
  decide

end Client

end TaskBoard
