import SlotIndex.Connection.IpAddress
import SlotIndex.Text.Blank
import SlotIndex.Text.Percent

/-!
# Connection strings

A connection string names database servers. It is a URL, or a list of settings `name=value` with
blanks between them. Of the settings only those that say where servers are reached are kept; the
others are checked alone.

* `Servers`: the named servers.
* `Servers.parse`: the servers of a connection string.
* `Servers.fault?`: why servers are not sufficiently described.
-/

namespace SlotIndex

/-- Where servers are reached: their names or socket paths, their numeric addresses and their
ports. -/
structure Servers where
  hosts : List (List UInt8) := []
  addresses : List (List Char) := []
  ports : List Nat := []
deriving DecidableEq

namespace Servers

/-- No server is named. -/
def empty : Servers := {}

/-! ## Settings -/

/-- Whether a text writes a signed 64-bit number. -/
def isSigned (text : List Char) : Bool :=
  match text with
  | '-' :: '+' :: _ => false
  | '-' :: digits => (Decimal.readUnsigned (UInt64.size / 2 + 1) digits).isOk
  | text => (Decimal.readUnsigned (UInt64.size / 2) text).isOk

/-- The ports in a list; an empty one is the usual port. -/
def portsOf (text : List Char) : Option (List Nat) :=
  (partsBetween ',' text).mapM fun port =>
    if port = [] then some 5432 else (Decimal.readUnsigned UInt16.size port).toOption

/-- Settings whose value may be any text. -/
def freeSettings : List String := ["user", "password", "dbname", "options", "application_name"]

/-- Settings whose value is one of some words. -/
def wordSettings : List (String × List String) :=
  [("sslmode", ["disable", "prefer", "require"]),
    ("sslnegotiation", ["postgres", "direct"]),
    ("target_session_attrs", ["any", "read-write", "read-only"]),
    ("channel_binding", ["disable", "prefer", "require"]),
    ("load_balance_hosts", ["disable", "random"])]

/-- Settings whose value is a signed number. -/
def signedSettings : List String :=
  ["connect_timeout", "tcp_user_timeout", "keepalives_idle", "keepalives_interval"]

/-- Settings whose value is a number below a limit. -/
def unsignedSettings : List (String × Nat) :=
  [("keepalives", UInt64.size), ("keepalives_retries", UInt32.size)]

/-- Whether a setting that does not concern the place of a server has a good value. -/
def isGoodSetting (name : String) (value : List Char) : Bool :=
  name ∈ freeSettings
    || wordSettings.any (fun s => s.1 = name && s.2.contains (String.ofList value))
    || (name ∈ signedSettings && isSigned value)
    || unsignedSettings.any (fun s => s.1 = name && (Decimal.readUnsigned s.2 value).isOk)

/-- Add a server by its name. -/
def addHost (s : Servers) (host : List UInt8) : Servers := { s with hosts := s.hosts ++ [host] }

/-- Take in a setting. -/
def set (s : Servers) (name : String) (value : List Char) : Option Servers :=
  if name = "host" then
    some ((partsBetween ',' value).foldl (fun s host => s.addHost (Utf8.encode host)) s)
  else if name = "hostaddr" then
    let addresses := partsBetween ',' value
    if addresses.all isIpAddress then some { s with addresses := s.addresses ++ addresses } else none
  else if name = "port" then
    (portsOf value).map fun ports => { s with ports := s.ports ++ ports }
  else if isGoodSetting name value then some s
  else none

/-! ## Lists of settings -/

/-- The characters of a quoted value up to its quote, and the rest behind the quote. A backslash
stands in front of a character that is taken as it is. -/
def quotedValue : List Char → Option (List Char × List Char)
  | [] => none
  | ['\\'] => none
  | '\\' :: c :: rest => (quotedValue rest).map fun r => (c :: r.1, r.2)
  | c :: rest =>
    if c.toNat = 39 then some ([], rest) else (quotedValue rest).map fun r => (c :: r.1, r.2)

/-- The characters of a value without quotes up to a blank, and the rest. -/
def plainValue : List Char → List Char × List Char
  | [] => ([], [])
  | ['\\'] => ([], [])
  | '\\' :: c :: rest => let r := plainValue rest; (c :: r.1, r.2)
  | c :: rest =>
    if Text.isBlank c then ([], c :: rest) else let r := plainValue rest; (c :: r.1, r.2)

/-- A value at the front and the rest. A value without quotes is not empty. -/
def valueAt (text : List Char) : Option (List Char × List Char) :=
  if text.head?.map Char.toNat = some 39 then quotedValue text.tail
  else
    match plainValue text with
    | ([], _) => none
    | r => some r

/-- Take in settings until no name is ahead. Every setting takes at least one character, so that as
many steps as there are characters are enough. -/
def readSettings (s : Servers) : (steps : Nat) → List Char → Option Servers
  | 0, _ => some s
  | steps + 1, text =>
    let text := text.dropWhile Text.isBlank
    let isNameChar (c : Char) : Bool := !Text.isBlank c && c ≠ '='
    match text.takeWhile isNameChar with
    | [] => some s
    | name =>
      match (text.dropWhile isNameChar).dropWhile Text.isBlank with
      | '=' :: rest =>
        match valueAt (rest.dropWhile Text.isBlank) with
        | none => none
        | some (value, rest) =>
          match s.set (String.ofList name) value with
          | none => none
          | some s => s.readSettings steps rest
      | _ => none

/-! ## URLs -/

/-- A text up to a character of a class and the text from there on, if there is one. -/
def splitBefore (stops : Char → Bool) (text : List Char) : Option (List Char × List Char) :=
  match text.dropWhile fun c => !stops c with
  | [] => none
  | rest => some (text.takeWhile fun c => !stops c, rest)

/-- Add a server by the name that a URL gives it. Only a path may be no text. -/
def addEncodedHost (s : Servers) (host : List Char) : Option Servers :=
  let octets := Percent.decode host
  if octets.head? = some 47 ∨ (Utf8.decode octets).isOk then some (s.addHost octets) else none

/-- The name and the port of a server. A name between brackets may hold colons. -/
def hostAndPort (text : List Char) : Option (List Char × Option (List Char)) :=
  match text with
  | '[' :: rest =>
    match splitBefore (· = ']') rest with
    | some (host, _ :: ':' :: port) => some (host, some port)
    | some (host, [_]) => some (host, none)
    | _ => none
  | _ =>
    match splitBefore (· = ':') text with
    | some (host, _ :: port) => some (host, some port)
    | _ => some (text, none)

/-- Take in one server of a URL. -/
def addServer (s : Servers) (text : List Char) : Option Servers := do
  let (host, port) ← hostAndPort text
  let s ← s.addEncodedHost host
  let port ← Percent.decodeText (port.getD ['5', '4', '3', '2'])
  s.set "port" port

/-- Take in the settings behind the question mark of a URL. -/
def readQuery (s : Servers) : (steps : Nat) → List Char → Option Servers
  | _, [] => some s
  | 0, _ => some s
  | steps + 1, text => do
    let (name, rest) ← splitBefore (· = '=') text
    let name ← Percent.decodeText name
    let (value, rest) := (splitBefore (· = '&') rest.tail).getD (rest.tail, [])
    if String.ofList name = "host" then
      let s ← s.addEncodedHost value
      s.readQuery steps rest.tail
    else
      let value ← Percent.decodeText value
      let s ← s.set (String.ofList name) value
      s.readQuery steps rest.tail

/-- The servers of a URL behind its scheme: a user and a password, servers, the name of a database
and settings, all of which may be missing. -/
def ofUrl (text : List Char) : Option Servers := do
  let (credentials, text) :=
    match splitBefore (· = '@') text with
    | some (credentials, rest) => (credentials, rest.tail)
    | none => ([], text)
  let _ ← Percent.decodeText (credentials.takeWhile (· ≠ ':'))
  let (hosts, text) := (splitBefore (fun c => c = '/' || c = '?') text).getD (text, [])
  let s ← if hosts = [] then some empty else (partsBetween ',' hosts).foldlM addServer empty
  let (database, text) := if text.head? = some '/' then
    (splitBefore (· = '?') text.tail).getD (text.tail, []) else ([], text)
  let _ ← Percent.decodeText database
  s.readQuery text.length text.tail

/-- The text behind the scheme of a URL. -/
def afterScheme? (text : List Char) : Option (List Char) :=
  ["postgres://", "postgresql://"].findSome? fun scheme =>
    if scheme.toList.isPrefixOf text then some (text.drop scheme.length) else none

/-- The servers of a connection string. -/
def parse (text : String) : Option Servers :=
  match afterScheme? text.toList with
  | some rest => ofUrl rest
  | none => readSettings empty (text.length + 1) text.toList

/-! ## Sufficient descriptions -/

/-- What is missing in the description of servers. -/
inductive Fault where
  | noServer
  | addressCount (hosts addresses : Nat)
  | portCount
deriving DecidableEq

/-- The wording of a fault. -/
def Fault.message : Fault → String
  | .noServer => "both host and hostaddr are missing"
  | .addressCount hosts addresses =>
    s!"number of hosts ({hosts}) is different from number of hostaddrs ({addresses})"
  | .portCount => "invalid number of ports"

/-- Why servers are not sufficiently described: there must be one, names and addresses must be as
many if both are given, and so must ports, unless one port holds for all. -/
def fault? (s : Servers) : Option Fault :=
  let names := s.hosts.length
  let addresses := s.addresses.length
  if names = 0 ∧ addresses = 0 then some .noServer
  else if 0 < names ∧ 0 < addresses ∧ names ≠ addresses then some (.addressCount names addresses)
  else if 1 < s.ports.length ∧ s.ports.length ≠ max names addresses then some .portCount
  else none

end Servers

end SlotIndex
