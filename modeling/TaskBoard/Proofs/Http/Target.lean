import TaskBoard.Client
import TaskBoard.Http.Route
import TaskBoard.Proofs.Text.Percent
import Mathlib.Data.List.TakeWhile

/-!
# The targets of a client's requests

A client at the origin of a server asks for exactly the route that it means, and the id that a
server finds in the segment of a task is the one that the client has put there.

* `Route.decodeId_percentEncode`, `Route.ofPath_task`: the segment of a task;
* `Target.read_url`: the target of a URL under an origin;
* `Client.target_tasks`, `Client.target_task`: the targets and routes of the client's URLs.
-/

namespace TaskBoard

open Text Net Http

/-! ## Segments -/

namespace Http.Route

/-- The bytes of an encoded segment stand for its text. -/
theorem decodeId_percentEncode {keep : Char → Bool} (hkeep : keep '%' = false) (cs : List Char) :
    decodeId (percentEncode keep cs) = some (String.ofList cs) := by
  rw [decodeId, percentDecode_percentEncode hkeep, utf8Decode_utf8Encode, strictText_map_char]
  rfl

theorem splitAtAll_segmentsText {segments : List (List Char)}
    (h : ∀ s ∈ segments, ∀ c ∈ s, c ≠ '/') :
    splitAtAll (· == '/') (Url.segmentsText segments) = [] :: segments :=
  splitAtAll_flatMap h

/-- The path of the tasks leads to them. -/
theorem ofPath_tasks : ofPath (Url.segmentsText Client.tasksPath) = some .tasks := by
  decide

/-- The path of a task leads to its segment. -/
theorem ofPath_task {segment : List Char} (hne : segment ≠ []) (hslash : ∀ c ∈ segment, c ≠ '/') :
    ofPath (Url.segmentsText (Client.tasksPath ++ [segment])) = some (.task segment) := by
  have hbase : (Client.tasksPath.all fun s => s.all (· != '/')) = true := by decide
  have hall : ∀ s ∈ Client.tasksPath ++ [segment], ∀ c ∈ s, c ≠ '/' := by
    intro s hs
    rcases List.mem_append.1 hs with hs | hs
    · intro c hc
      simpa using List.all_eq_true.1 (List.all_eq_true.1 hbase s hs) c hc
    · rw [List.mem_singleton.1 hs]
      exact hslash
  have hparts : (splitAtAll (· == '/') (Url.segmentsText (Client.tasksPath ++ [segment]))).map
      String.ofList = ["", "api", "v1", "tasks", String.ofList segment] := by
    rw [splitAtAll_segmentsText hall]
    rfl
  have hnonempty : (String.ofList segment).isEmpty = false := by
    simpa using hne
  simp only [ofPath, hparts, hnonempty, Bool.false_eq_true, if_false, String.toList_ofList]

end Http.Route

namespace Net.Url

theorem lowerAscii_eq {c d : Char} (h : lowerAscii c = d) :
    c = d ∨ 65 ≤ c.toNat ∧ c.toNat + 32 = d.toNat := by
  have hcodes : ∀ n < 91, 65 ≤ n → (Char.ofNat (n + 32)).toNat = n + 32 := by decide
  unfold lowerAscii at h
  split at h
  · rename_i hupper
    have hlow : 65 ≤ c.toNat := hupper.1
    have hhigh : c.toNat ≤ 90 := hupper.2
    right
    rw [← h, hcodes c.toNat (by omega) hlow]
    exact ⟨hlow, rfl⟩
  · exact Or.inl h

theorem eq_of_lowerAscii {c d : Char} (h : lowerAscii c = d) (hd : d.toNat < 97) : c = d := by
  rcases lowerAscii_eq h with rfl | ⟨hlow, hcode⟩
  · rfl
  · omega

theorem eq_or_eq_of_lowerAscii {c : Char} (h : lowerAscii c = 'e') : c = 'e' ∨ c = 'E' := by
  rcases lowerAscii_eq h with rfl | ⟨-, hcode⟩
  · exact Or.inl rfl
  · have hE : c.toNat = 'E'.toNat := Nat.add_right_cancel hcode
    exact Or.inr (Char.toNat_inj.1 hE)

/-- The ways to write a dot. -/
def dotSpellings : List (List Char) := [".".toList, "%2e".toList, "%2E".toList]

theorem mem_dotSpellings {s : List Char}
    (h : s.map lowerAscii = ".".toList ∨ s.map lowerAscii = "%2e".toList) : s ∈ dotSpellings := by
  rcases h with h | h
  · obtain ⟨a, rfl, ha⟩ := List.map_eq_singleton_iff.1 h
    rw [eq_of_lowerAscii ha (by decide)]
    decide
  · obtain ⟨a, as, rfl, ha, has⟩ := List.map_eq_cons_iff.1 h
    obtain ⟨b, bs, rfl, hb, hbs⟩ := List.map_eq_cons_iff.1 has
    obtain ⟨c, rfl, hc⟩ := List.map_eq_singleton_iff.1 hbs
    rw [eq_of_lowerAscii ha (by decide), eq_of_lowerAscii hb (by decide)]
    rcases eq_or_eq_of_lowerAscii hc with rfl | rfl
    · decide
    · decide

/-- A segment that stands for nothing spells one dot. -/
theorem decodeId_of_isSingleDot {s : List Char} (h : isSingleDot s = true) :
    Http.Route.decodeId s = some "." := by
  have hspelled : ∀ s ∈ dotSpellings, Http.Route.decodeId s = some "." := by decide
  simp only [isSingleDot, Bool.or_eq_true, beq_iff_eq] at h
  exact hspelled s (mem_dotSpellings h)

/-- A segment that stands for the one before it spells two dots. -/
theorem decodeId_of_isDoubleDot {s : List Char} (h : isDoubleDot s = true) :
    Http.Route.decodeId s = some ".." := by
  have hspelled : ∀ s ∈ dotSpellings, ∀ t ∈ dotSpellings,
      Http.Route.decodeId (s ++ t) = some ".." := by decide
  have hdots : ∃ a b : List Char, (a = ".".toList ∨ a = "%2e".toList)
      ∧ (b = ".".toList ∨ b = "%2e".toList) ∧ s.map lowerAscii = a ++ b := by
    simp only [isDoubleDot, List.contains_iff_mem, List.mem_cons, List.not_mem_nil,
      or_false] at h
    rcases h with h | h | h | h
    · exact ⟨_, _, Or.inl rfl, Or.inl rfl, h⟩
    · exact ⟨_, _, Or.inl rfl, Or.inr rfl, h⟩
    · exact ⟨_, _, Or.inr rfl, Or.inl rfl, h⟩
    · exact ⟨_, _, Or.inr rfl, Or.inr rfl, h⟩
  obtain ⟨a, b, ha, hb, hmap⟩ := hdots
  obtain ⟨s, t, rfl, hs, ht⟩ := List.map_eq_append_iff.1 hmap
  rw [← hs] at ha
  rw [← ht] at hb
  exact hspelled s (mem_dotSpellings ha) t (mem_dotSpellings hb)

/-- What a segment keeps may stand in a path and ends nothing. -/
theorem of_keptInSegment {kind : Kind} {c : Char} (h : keptInSegment kind c = true) :
    Http.Target.isPathChar c = true ∧ c ≠ '/' ∧ c ≠ '?' ∧ c ≠ '#' := by
  have hcodes : ∀ n < 0x7F, keptInSegment kind (Char.ofNat n) = true →
      Http.Target.isPathChar (Char.ofNat n) = true ∧ Char.ofNat n ≠ '/' ∧ Char.ofNat n ≠ '?'
        ∧ Char.ofNat n ≠ '#' := by
    cases kind <;> decide +kernel
  have hgraphic : Host.isGraphic c = true := by
    simp only [keptInSegment, keptInPath, keptInFragment, Bool.and_eq_true] at h
    exact h.1.1.1.1.1
  have hlt : c.toNat < 0x7F := of_decide_eq_true (Bool.and_eq_true_iff.1 hgraphic).2
  have hc := hcodes c.toNat hlt
  rw [Char.ofNat_toNat] at hc
  exact hc h

/-- An encoded segment may stand in a path and ends nothing. -/
theorem forall_mem_segment (kind : Kind) (cs : List Char) :
    ∀ c ∈ percentEncode (keptInSegment kind) cs,
      Http.Target.isPathChar c = true ∧ c ≠ '/' ∧ c ≠ '?' ∧ c ≠ '#' :=
  forall_mem_percentEncode (fun _ hc => of_keptInSegment hc) (by decide) (by decide) cs

end Net.Url

/-- An id that can be a segment of its own. -/
structure Client.PlainId (id : String) : Prop where
  nonempty : id ≠ ""
  ne_dot : id ≠ "."
  ne_dots : id ≠ ".."
  inside : ∀ c ∈ id.toList, c ≠ '\t' ∧ c ≠ '\n' ∧ c ≠ '\r'

namespace Net.Url

/-- A plain id is appended as the segment that stands for it. -/
theorem pushSegment_plain {id : String} (h : Client.PlainId id) {segments : List (List Char)}
    (hne : segments ≠ [[]]) : pushSegment .special segments id.toList
      = segments ++ [percentEncode (keptInSegment .special) id.toList] := by
  have hchars : segmentChars .special id.toList
      = percentEncode (keptInSegment .special) id.toList := by
    have hkept : id.toList.filter (fun c => c != '\t' && c != '\n' && c != '\r') = id.toList := by
      rw [List.filter_eq_self]
      intro c hc
      simpa [and_assoc] using h.inside c hc
    rw [segmentChars, hkept]
  have hdecode : Http.Route.decodeId (percentEncode (keptInSegment .special) id.toList)
      = some id := by
    rw [Http.Route.decodeId_percentEncode (by decide), String.ofList_toList]
  -- a segment that was resolved would stand for dots, and the id is not made of those
  have hdots : isDoubleDot (percentEncode (keptInSegment .special) id.toList) = false := by
    rw [Bool.eq_false_iff]
    intro hdots
    rw [decodeId_of_isDoubleDot hdots] at hdecode
    exact h.ne_dots (Option.some.inj hdecode).symm
  have hdot : isSingleDot (percentEncode (keptInSegment .special) id.toList) = false := by
    rw [Bool.eq_false_iff]
    intro hdot
    rw [decodeId_of_isSingleDot hdot] at hdecode
    exact h.ne_dot (Option.some.inj hdecode).symm
  have hnot : ¬ (id.toList = ".".toList ∨ id.toList = "..".toList) := by
    rw [String.toList_inj, String.toList_inj]
    exact not_or.2 ⟨h.ne_dot, h.ne_dots⟩
  rw [pushSegment, if_neg hnot, if_neg hne, hchars, step, hdots, hdot]
  rfl

end Net.Url

/-! ## Targets -/

/-- User name, password, host and port of a URL with this host. -/
def Net.Url.authority (u : Url) (host : Host) : List Char :=
  u.credentialsText ++ host.text ++ u.port.elim [] (fun port => ':' :: natDigits port)

/-- The client's URL is the origin of a server, and a request can name its host. -/
structure Client.AtOrigin (client : Client) : Prop where
  scheme : client.base.scheme = "http".toList ∨ client.base.scheme = "https".toList
  authority : ∃ host, client.base.host = some host ∧ client.base.authority host ≠ []
    ∧ Http.Target.isAuthority (client.base.authority host) = true
  path_eq : client.base.path = .segments [[]]
  query_eq : client.base.query = none

namespace Http.Target

/-- No authority goes on beyond a slash, a question mark or a number sign. -/
theorem ends_of_isAuthority {cs : List Char} (h : isAuthority cs = true) :
    ∀ c ∈ cs, c ≠ '/' ∧ c ≠ '?' ∧ c ≠ '#' := by
  have hstep : ∀ (s s' : Seen) (c : Char), s.step c = some s' → c ≠ '/' ∧ c ≠ '?' ∧ c ≠ '#' := by
    rintro s s' c hc
    refine ⟨?_, ?_, ?_⟩
    · rintro rfl
      cases hc
    · rintro rfl
      cases hc
    · rintro rfl
      cases hc
  have hall : ∀ (cs : List Char) (s s' : Seen), cs.foldlM Seen.step s = some s' →
      ∀ c ∈ cs, c ≠ '/' ∧ c ≠ '?' ∧ c ≠ '#' := by
    intro cs
    induction cs with
    | nil => exact fun _ _ _ c hc => absurd hc List.not_mem_nil
    | cons d cs ih =>
      intro s s' hfold c hc
      obtain ⟨next, hnext, hrest⟩ := Option.bind_eq_some_iff.1 hfold
      rcases List.mem_cons.1 hc with rfl | hc
      · exact hstep s next c hnext
      · exact ih next s' hrest c hc
  unfold isAuthority at h
  split at h
  · rename_i s hs
    exact hall cs {} s hs
  · cases h

/-- A path and a query of their characters are read up to the fragment. -/
theorem readPath_eq {path : List Char} {query : Option (List Char)} (hne : path ≠ [])
    (hpath : ∀ c ∈ path, isPathChar c = true ∧ c ≠ '?' ∧ c ≠ '#')
    (hquery : ∀ c ∈ query.getD [], isQueryChar c = true ∧ c ≠ '#')
    (fragment : Option (List Char)) :
    readPath (path ++ (query.elim [] ('?' :: ·) ++ fragment.elim [] ('#' :: ·)))
      = some ⟨path, query⟩ := by
  have hfragment : ∀ c ∈ path ++ query.elim [] ('?' :: ·), (c != '#') = true := by
    intro c hc
    rcases List.mem_append.1 hc with hc | hc
    · simpa using (hpath c hc).2.2
    · cases query with
      | none => cases hc
      | some text =>
        rcases List.mem_cons.1 hc with rfl | hc
        · decide
        · simpa using (hquery c hc).2
  have hmark : ∀ c ∈ path, (c != '?') = true := fun c hc => by simpa using (hpath c hc).2.1
  have hcut : (path ++ (query.elim [] ('?' :: ·) ++ fragment.elim [] ('#' :: ·))).takeWhile
      (· != '#') = path ++ query.elim [] ('?' :: ·) := by
    rw [← List.append_assoc, List.takeWhile_append_of_pos hfragment]
    cases fragment with
    | none => simp
    | some text => simp
  have htake : (path ++ query.elim [] ('?' :: ·)).takeWhile (· != '?') = path := by
    rw [List.takeWhile_append_of_pos hmark]
    cases query <;> simp
  have hdrop : (path ++ query.elim [] ('?' :: ·)).dropWhile (· != '?')
      = query.elim [] ('?' :: ·) := by
    rw [List.dropWhile_append_of_pos hmark]
    cases query <;> simp
  have hallowed : path.all isPathChar = true := List.all_eq_true.2 fun c hc => (hpath c hc).1
  have hquestion : (query.getD []).all isQueryChar = true :=
    List.all_eq_true.2 fun c hc => (hquery c hc).1
  have hnonempty : path.isEmpty = false := by simpa using hne
  unfold readPath
  simp only [hcut, htake, hdrop]
  cases query with
  | none => simp [hallowed, hnonempty]
  | some text =>
    have htext : text.all isQueryChar = true := hquestion
    simp [hallowed, hnonempty, htext]

theorem afterScheme_eq {scheme : List Char}
    (h : scheme = "http".toList ∨ scheme = "https".toList) (rest : List Char) :
    afterScheme (scheme ++ ':' :: '/' :: '/' :: rest) = some (some rest) := by
  rcases h with rfl | rfl
  · rfl
  · rfl

/-- A whole URL is a target for what follows its authority. -/
theorem read_absolute {text : String} {scheme authority rest : List Char}
    (hscheme : scheme = "http".toList ∨ scheme = "https".toList) (hne : authority ≠ [])
    (hauthority : isAuthority authority = true)
    (htext : text.toList = scheme ++ ':' :: '/' :: '/' :: (authority ++ '/' :: rest))
    (hsize : text.utf8ByteSize ≤ maxLength) : read text = readPath ('/' :: rest) := by
  have hsmall : ¬ maxLength < text.utf8ByteSize := Nat.not_lt.2 hsize
  have hafter := afterScheme_eq hscheme (authority ++ '/' :: rest)
  have hsplit : splitAuthority (authority ++ '/' :: rest) = (authority, '/' :: rest) := by
    have hends : ∀ c ∈ authority, (!(c == '/' || c == '?' || c == '#')) = true := by
      intro c hc
      simpa [and_assoc] using ends_of_isAuthority hauthority c hc
    simp only [splitAuthority]
    rw [List.takeWhile_append_of_pos hends, List.dropWhile_append_of_pos hends]
    simp
  have hnonempty : authority.isEmpty = false := by simpa using hne
  unfold read
  simp only [if_neg hsmall, htext]
  -- with its first characters in sight, the text is neither a star nor a path
  rcases hscheme with rfl | rfl
  · have hlist : "http".toList ++ ':' :: '/' :: '/' :: (authority ++ '/' :: rest)
        = 'h' :: 't' :: 't' :: 'p' :: ':' :: '/' :: '/' :: (authority ++ '/' :: rest) := rfl
    rw [hlist] at hafter ⊢
    simp [hafter, hsplit, hnonempty, hauthority]
  · have hlist : "https".toList ++ ':' :: '/' :: '/' :: (authority ++ '/' :: rest)
        = 'h' :: 't' :: 't' :: 'p' :: 's' :: ':' :: '/' :: '/' :: (authority ++ '/' :: rest) := rfl
    rw [hlist] at hafter ⊢
    simp [hafter, hsplit, hnonempty, hauthority]

/-- A URL with a host is a target for its path and its query. -/
theorem read_url {u : Url} {host : Host} {path : List Char}
    (hscheme : u.scheme = "http".toList ∨ u.scheme = "https".toList) (hhost : u.host = some host)
    (hne : u.authority host ≠ []) (hauthority : isAuthority (u.authority host) = true)
    (hpath : u.path.text = '/' :: path)
    (hchars : ∀ c ∈ '/' :: path, isPathChar c = true ∧ c ≠ '?' ∧ c ≠ '#')
    (hquery : ∀ c ∈ u.query.getD [], isQueryChar c = true ∧ c ≠ '#')
    (hsize : u.text.utf8ByteSize ≤ maxLength) : read u.text = some ⟨'/' :: path, u.query⟩ := by
  have htext : u.text.toList = u.scheme ++ ':' :: '/' :: '/'
      :: (u.authority host ++ '/' :: (path ++ (u.query.elim [] ('?' :: ·)
        ++ u.fragment.elim [] ('#' :: ·)))) := by
    simp [Url.text, Url.print, Url.authorityText, hhost, hpath, Url.authority]
  rw [read_absolute hscheme hne hauthority htext hsize]
  exact readPath_eq (List.cons_ne_nil '/' path) hchars hquery u.fragment

end Http.Target

/-! ## The client's URLs -/

namespace Client

variable {client : Client} {id : String}

/-- The segment of a task's id. -/
def segmentOf (id : String) : List Char := percentEncode (Url.keptInSegment .special) id.toList

/-- What is appended to an empty path leaves the rest of the URL. -/
theorem extend_eq (h : client.AtOrigin) (texts : List (List Char)) :
    client.base.extend texts
      = { client.base with path := .segments (texts.foldl (Url.pushSegment .special) [[]]) } := by
  have hkind : Url.kindOf client.base.scheme = .special := by
    rcases h.scheme with hscheme | hscheme
    · rw [hscheme]
      decide
    · rw [hscheme]
      decide
  simp [Url.extend, h.path_eq, hkind, Url.popIfEmpty]

/-- Segments of path characters, appended to an empty path, are the target, with a query if there
is one. -/
theorem read_extend (h : client.AtOrigin) {texts segments : List (List Char)}
    (hsegments : texts.foldl (Url.pushSegment .special) [[]] = segments) (hne : segments ≠ [])
    (hchars : ∀ s ∈ segments, ∀ c ∈ s, Target.isPathChar c = true ∧ c ≠ '?' ∧ c ≠ '#')
    {query : Option (List Char)}
    (hquery : ∀ c ∈ query.getD [], Target.isQueryChar c = true ∧ c ≠ '#')
    (hsize : (Url.text { client.url texts with query }).utf8ByteSize ≤ Target.maxLength) :
    Target.read (Url.text { client.url texts with query })
      = some ⟨Url.segmentsText segments, query⟩ := by
  obtain ⟨host, hhost, hnonempty, hauthority⟩ := h.authority
  obtain ⟨s, rest, rfl⟩ := List.exists_cons_of_ne_nil hne
  have hpath : Url.segmentsText (s :: rest) = '/' :: (s ++ Url.segmentsText rest) := rfl
  have hslash : Target.isPathChar '/' = true ∧ '/' ≠ '?' ∧ '/' ≠ '#' := by decide
  have hall : ∀ c ∈ Url.segmentsText (s :: rest),
      Target.isPathChar c = true ∧ c ≠ '?' ∧ c ≠ '#' := by
    intro c hc
    obtain ⟨t, ht, hc⟩ := List.mem_flatMap.1 hc
    rcases List.mem_cons.1 hc with rfl | hc
    · exact hslash
    · exact hchars t ht c hc
  rw [url, extend_eq h, hsegments] at hsize ⊢
  rw [hpath] at hall ⊢
  exact Target.read_url (u := { client.base with path := .segments (s :: rest), query })
    h.scheme hhost hnonempty hauthority hpath hall hquery hsize

/-- The same without a query. -/
theorem read_extend_bare (h : client.AtOrigin) {texts segments : List (List Char)}
    (hsegments : texts.foldl (Url.pushSegment .special) [[]] = segments) (hne : segments ≠ [])
    (hchars : ∀ s ∈ segments, ∀ c ∈ s, Target.isPathChar c = true ∧ c ≠ '?' ∧ c ≠ '#')
    (hsize : (client.url texts).text.utf8ByteSize ≤ Target.maxLength) :
    Target.read (client.url texts).text = some ⟨Url.segmentsText segments, none⟩ := by
  have hquery : { client.url texts with query := none } = client.url texts := by
    rw [url, extend_eq h, ← h.query_eq]
  rw [← hquery] at hsize ⊢
  exact read_extend h hsegments hne hchars (by simp) hsize

theorem foldl_tasksPath : tasksPath.foldl (Url.pushSegment .special) [[]] = tasksPath := by
  decide

theorem tasksPath_chars :
    ∀ s ∈ tasksPath, ∀ c ∈ s, Target.isPathChar c = true ∧ c ≠ '?' ∧ c ≠ '#' := by
  have hall : (tasksPath.all fun s =>
      s.all fun c => Target.isPathChar c && c != '?' && c != '#') = true := by decide
  intro s hs c hc
  simpa [and_assoc] using List.all_eq_true.1 (List.all_eq_true.1 hall s hs) c hc

/-- The URL of the tasks is a target for their route. -/
theorem target_tasks (h : client.AtOrigin)
    (hsize : (client.url tasksPath).text.utf8ByteSize ≤ Target.maxLength) :
    ∃ path, Target.read (client.url tasksPath).text = some ⟨path, none⟩
      ∧ Route.ofPath path = some .tasks :=
  ⟨_, read_extend_bare h foldl_tasksPath (by decide) tasksPath_chars hsize, Route.ofPath_tasks⟩

/-- The URL of a task is a target for the route with its segment, in which its id is found. -/
theorem target_task (h : client.AtOrigin) (hid : PlainId id)
    (hsize : (client.taskUrl id).text.utf8ByteSize ≤ Target.maxLength) :
    ∃ path, Target.read (client.taskUrl id).text = some ⟨path, none⟩
      ∧ Route.ofPath path = some (.task (segmentOf id))
      ∧ Route.decodeId (segmentOf id) = some id := by
  have hfold : (tasksPath ++ [id.toList]).foldl (Url.pushSegment .special) [[]]
      = tasksPath ++ [segmentOf id] := by
    rw [List.foldl_append, foldl_tasksPath]
    exact Url.pushSegment_plain hid (by decide)
  have hsegment := Url.forall_mem_segment .special id.toList
  have hchars : ∀ s ∈ tasksPath ++ [segmentOf id], ∀ c ∈ s,
      Target.isPathChar c = true ∧ c ≠ '?' ∧ c ≠ '#' := by
    intro s hs c hc
    rcases List.mem_append.1 hs with hs | hs
    · exact tasksPath_chars s hs c hc
    · rw [List.mem_singleton.1 hs] at hc
      obtain ⟨hpath, -, hquery, hfragment⟩ := hsegment c hc
      exact ⟨hpath, hquery, hfragment⟩
  have hne : segmentOf id ≠ [] := by
    refine percentEncode_ne_nil fun hnil => hid.nonempty ?_
    exact String.toList_inj.1 hnil
  have hread := read_extend_bare h hfold (by simp) hchars hsize
  refine ⟨_, hread, Route.ofPath_task hne fun c hc => (hsegment c hc).2.1, ?_⟩
  rw [segmentOf, Route.decodeId_percentEncode (by decide), String.ofList_toList]

end Client

end TaskBoard
