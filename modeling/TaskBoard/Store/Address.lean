import TaskBoard.Net.SocketAddress
import TaskBoard.Net.Url.Read
import TaskBoard.Task.Error
import TaskBoard.Text.Ascii
import TaskBoard.Text.Percent

/-!
# The address of a database

An address is a URL of any scheme. User name, password and path have to be text once they are
decoded, and the parameters that are read have to have one of their values.
-/

namespace TaskBoard.DatabaseAddress

open Text

/-- The error of an address that cannot be used. -/
def refused (detail : String) : TaskError := .persistence ("error with configuration: " ++ detail)

/-- The ways to use an encrypted connection. -/
def encryptionModes : List String :=
  ["disable", "allow", "prefer", "require", "verify-ca", "verify-full"]

/-- Whether a text is an unsigned number of `bits` bits. -/
def isNumber (bits : Nat) (value : List Char) : Bool :=
  match readUnsigned? value with
  | some n => decide (n < Nat.pow 2 bits)
  | none => false

/-- Whether a text is an internet address. -/
def isIp (value : List Char) : Bool :=
  match Net.SocketAddress.takeIpv4 value, Net.SocketAddress.takeIpv6 value with
  | some (_, []), _ | _, some (_, []) => true
  | _, _ => false

/-- Whether a parameter has one of its values. Those of unknown names are not read. -/
def isParameter (name value : List Char) : Bool :=
  match String.ofList name with
  | "sslmode" | "ssl-mode" => encryptionModes.contains (String.ofList (value.map lowerAscii))
  | "statement-cache-capacity" => isNumber 64 value
  | "port" => isNumber 16 value
  | "hostaddr" => isIp value
  | _ => true

/-- Refuses an address that cannot be used. -/
def check (address : String) : Except TaskError Unit :=
  match Net.Url.read address.toList with
  | .error e => .error (refused e.message)
  | .ok u =>
    if !(isEncodedText u.username && isEncodedText u.password && isEncodedText u.path.text) then
      .error (refused "a part of the address is no text")
    else if !(u.parameters.all fun (name, value) => isParameter name value) then
      .error (refused "invalid value of a parameter")
    else .ok ()

end TaskBoard.DatabaseAddress
