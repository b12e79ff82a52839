import NadSafe.CsvText
import NadSafe.ExtensionWorker

/-!
# Hosts of the autofill query

Stored addresses and the page are reduced to hostnames without a leading
`www.`, and match when one is the other or a subdomain of it. Label lists say
the same: one is a suffix of the other. What is left of `www.` and a single
label is a whole top-level domain, though.
-/

namespace NadSafe.AutofillHosts

open HostText CsvText WebCrypto WebClient ExtensionWorker

/-- A character of a URL scheme behind the first one. -/
def isSchemeChar (c : Char) : Bool := c.isAlphanum || c= '+' || c= '.' || c= '-'

/-- `/^[a-z][a-z0-9+.-]*:\/\//i`. -/
def hasScheme : Text → Bool
  | [] => false
  | c::s => c.isAlpha && "://".toList.isPrefixOf (s.dropWhile isSchemeChar)

section Matching

variable (platform : Platform) (parseHostname : Text → Option Text)

/-- The hostname of a value in lower case, where it has one. -/
def urlHostname (value : Text) : Option Text :=
  let s := trim value
  if s=[] then none
  else (parseHostname (if hasScheme s=true then s else "https://".toList++s)).map platform.toLowerCase

/-- A hostname without a leading `www.`. -/
def stripWww (host : Text) : Text := if "www.".toList.isPrefixOf host=true then host.drop 4 else host

/-- `normalizeHost`. -/
def normalizeHost (value : Text) : Text := ((urlHostname platform parseHostname value).map stripWww).getD []

/-- `hostsMatch`. -/
def hostsMatch (a b : Text) : Bool :=
  if a=[] ∨ b=[] then false
  else if a=b then true
  else ('.'::b).isSuffixOf a || ('.'::a).isSuffixOf b

/-- The login of an item that is offered. -/
structure Match where
  /-- Identifier. -/
  id : Text
  /-- Name. -/
  name : Text
  /-- User name. -/
  username : Text
  /-- Password. -/
  password : Text

/-- The items that can be offered. -/
def available (session : SessionArea) : List Item :=
  if session.locked=some true then [] else (session.items.getD []).filter fun item => item.type=.login ∧ item.login.isSome

/-- The addresses of an item. -/
def uris (item : Item) : List Text := (item.login.map LoginFields.uris).getD []

/-- The items that are offered for a page. -/
def offered (session : SessionArea) (url : Text) : List Item :=
  let host := normalizeHost platform parseHostname url
  if host=[] then []
  else (available session).filter fun item =>
    (uris item).any fun uri => hostsMatch (normalizeHost platform parseHostname uri) host

/-- `handleAutofillQuery`. -/
def handleAutofillQuery (session : SessionArea) (url : Text) : List Match :=
  (offered platform parseHostname session url).map fun item =>
    ⟨item.id,item.name,(item.login.map LoginFields.username).getD [],(item.login.map LoginFields.password).getD []⟩

end Matching

section Labels

variable {a b h other : Text}

/-- `www.` and a single label, and a hostname below that label. -/
def Bare (h other : Text) : Prop :=
  ∃ label,label≠[] ∧ '.'∉label ∧ h="www.".toList++label ∧ '.'::label<:+other

end Labels

section Queries

variable (platform : Platform) (parseHostname : Text → Option Text)

variable {platform parseHostname}

end Queries

section Samples

end Samples

end NadSafe.AutofillHosts
