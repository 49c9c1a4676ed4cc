import TaskBoard.Cache.Error
import TaskBoard.Net.Url.Read
import TaskBoard.Text.Blank
import TaskBoard.Text.Percent

/-!
# The address of a cache server

An address is `host:port` or a whole URL with one of the two schemes of the cache server. A server
can be used if the scheme is the plain one, there is a host, the path is empty or a number, and
the parameter `protocol`, if there is one, names a version of the protocol.
-/

namespace TaskBoard.CacheAddress

open Text

/-- The URL of an address. -/
def toUrl (address : String) : String :=
  let cs := trim address.toList
  if "redis://".toList.isPrefixOf cs || "rediss://".toList.isPrefixOf cs then String.ofList cs
  else "redis://" ++ String.ofList cs

/-- The path without the slashes at its ends. -/
def trimSlashes (cs : List Char) : List Char :=
  ((cs.dropWhile (· == '/')).reverse.dropWhile (· == '/')).reverse

/-- Whether a path names a database: nothing or an integer of 64 bits. -/
def isDatabase (path : List Char) : Bool :=
  match trimSlashes path with
  | [] => true
  | cs =>
    match readSigned? cs with
    | some n => -9223372036854775808 ≤ n && n ≤ 9223372036854775807
    | none => false

/-- Whether the parameters name no version of the protocol, or a known one. The last of several
counts. -/
def isProtocol (parameters : List (List Char × List Char)) : Bool :=
  match parameters.reverse.lookup "protocol".toList with
  | none => true
  | some version => ["2", "resp2", "3", "resp3"].contains (String.ofList version)

/-- Refuses an address that cannot be used. -/
def check (address : String) : Except CacheError Unit :=
  match Net.Url.read (toUrl address).toList with
  | .error e => .error (.connection e.message)
  | .ok u =>
    if u.scheme ≠ "redis".toList then .error (.connection "unsupported scheme")
    else if u.host.isNone ∨ u.host = some (.name []) then .error (.connection "missing host")
    else if !(isEncodedText u.username && isEncodedText u.password) then
      .error (.connection "credentials are no text")
    else if !isDatabase u.path.text then .error (.connection "invalid database number")
    else if !isProtocol u.parameters then .error (.connection "invalid protocol version")
    else .ok ()

end TaskBoard.CacheAddress
