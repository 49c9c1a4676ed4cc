import TaskBoard.Net.Url.Basic

/-!
# Paths of URLs

Reading a path segment by segment, resolving the segments `.` and `..`, and appending single
segments to a path that has been read.
-/

namespace TaskBoard.Net.Url

open Text

/-- Whether a segment stands for the one before it. -/
def isDoubleDot (segment : List Char) : Bool :=
  let s := segment.map lowerAscii
  [ "..".toList, ".%2e".toList, "%2e.".toList, "%2e%2e".toList ].contains s

/-- Whether a segment stands for nothing. -/
def isSingleDot (segment : List Char) : Bool :=
  let s := segment.map lowerAscii
  s == ".".toList || s == "%2e".toList

/-- Whether a segment is a letter and a colon, which in a file URL names a drive. -/
def isDrive : List Char → Bool
  | [c, ':'] => isAsciiLetter c
  | _ => false

/-- A path without its last segment. The drive of a file URL stays. -/
def shorten (kind : Kind) (segments : List (List Char)) : List (List Char) :=
  match kind, segments with
  | .file, [s] => if isDrive s then [s] else []
  | _, _ => segments.dropLast

/-- A first segment of a file URL with its drive spelt with a colon. -/
def drive (kind : Kind) (segments : List (List Char)) (segment : List Char) : List Char :=
  match kind, segments, segment with
  | .file, [], [c, '|'] => if isAsciiLetter c then [c, ':'] else segment
  | _, _, _ => segment

/-- A path with one more segment. `last` says whether no other follows. -/
def step (kind : Kind) (segments : List (List Char)) (segment : List Char) (last : Bool) :
    List (List Char) :=
  if isDoubleDot segment then
    let shorter := shorten kind segments
    if last then shorter ++ [[]] else shorter
  else if isSingleDot segment then
    if last then segments ++ [[]] else segments
  else segments ++ [drive kind segments segment]

/-- A path with more segments. -/
def steps (kind : Kind) (segments : List (List Char)) : List (List Char) → List (List Char)
  | [] => segments
  | [s] => step kind segments s true
  | s :: rest => steps kind (step kind segments s false) rest

/-- Whether a character ends a segment. -/
def isSlash (kind : Kind) (c : Char) : Bool := c == '/' || (kind.isSpecial && c == '\\')

/-- The path of a text, after its first slash if it has one. In a file URL leading empty segments
are dropped. -/
def readSegments (kind : Kind) (cs : List Char) : List (List Char) :=
  let raw := splitAtAll (isSlash kind) cs
  let segments := steps kind [] (raw.map (percentEncode keptInPath))
  match kind with
  | .file =>
    match segments.dropWhile List.isEmpty with
    | [] => [[]]
    | kept => kept
  | _ => segments

/-- The characters of a segment that is appended: tabs and line ends are dropped. -/
def segmentChars (kind : Kind) (text : List Char) : List Char :=
  percentEncode (keptInSegment kind) (text.filter fun c => c != '\t' && c != '\n' && c != '\r')

/-- The segments without an empty last one, unless that is the only one. -/
def popIfEmpty (segments : List (List Char)) : List (List Char) :=
  if 2 ≤ segments.length && segments.getLast? == some [] then segments.dropLast else segments

/-- The segments with a text appended as one segment. The texts `.` and `..` append nothing, and
the empty segment of a bare slash is replaced. -/
def pushSegment (kind : Kind) (segments : List (List Char)) (text : List Char) :
    List (List Char) :=
  if text = ".".toList ∨ text = "..".toList then segments
  else step kind (if segments = [[]] then [] else segments) (segmentChars kind text) true

/-- The URL with texts appended to its path, after dropping an empty last segment. -/
def extend (u : Url) (texts : List (List Char)) : Url :=
  match u.path with
  | .opaqueText _ => u
  | .segments segments =>
    { u with path := .segments (texts.foldl (pushSegment (kindOf u.scheme)) (popIfEmpty segments)) }

end TaskBoard.Net.Url
