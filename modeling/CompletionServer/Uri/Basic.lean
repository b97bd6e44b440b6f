import CompletionServer.Text.Quoted
import CompletionServer.Uri.Host
import CompletionServer.Uri.Percent

/-!
# Document addresses

Documents are named by URIs. Two parts of one matter here: the scheme, and for the scheme `file` the
path of the file. Of every other scheme the whole URI serves as the name of the document.

Blanks and controls before the URI do not count, and neither do tabs and line breaks in it. An
authority that cannot be one makes the URI unusable.
-/

namespace CompletionServer.Uri

open Text

/-- Why a text is no URI. -/
inductive Error where
  | brackets
  | laterAddress
  | noAddress (host : List Char)
  | bracketedIPv4
  | normalization (authority : List Char)
deriving DecidableEq, Repr

/-- The parts of a URI as they are written. Query and fragment are not kept. -/
structure Parts where
  scheme : List Char
  authority : List Char
  path : List Char
deriving DecidableEq, Repr

/-! ## Splitting -/

/-- The URI without what does not count in it. -/
def clean (s : List Char) : List Char :=
  (s.dropWhile fun c ↦ c.toNat ≤ 32).filter fun c ↦ c != '\t' && c != '\r' && c != '\n'

def isSchemeChar (c : Char) : Bool := c.isAlphanum || c == '+' || c == '-' || c == '.'

/-- The scheme in lower case and what follows its colon; no scheme if what stands before the first
colon cannot be one. -/
def splitScheme (s : List Char) : List Char × List Char :=
  match cutAt ':' s with
  | (c :: scheme, some rest) =>
    if c.isAlpha && scheme.all isSchemeChar then ((c :: scheme).map Char.toLower, rest)
    else ([], s)
  | _ => ([], s)

def endsAuthority (c : Char) : Bool := c == '/' || c == '?' || c == '#'

/-- The authority after two slashes, and what follows it. -/
def splitAuthority : List Char → List Char × List Char
  | '/' :: '/' :: rest =>
    (rest.takeWhile fun c ↦ !endsAuthority c, rest.dropWhile fun c ↦ !endsAuthority c)
  | s => ([], s)

/-- The characters outside ASCII whose compatibility decomposition holds one of `/?#@:`. -/
def hidesDelimiter (c : Char) : Bool :=
  "⁇⁈⁉℀℁℅℆⩴︓︖﹕﹖﹟﹫＃／：？＠".toList.contains c

/-- The text after the last `c`, all of it if there is none. -/
def afterLast (c : Char) (s : List Char) : List Char :=
  (s.reverse.takeWhile (· != c)).reverse

/-- The host of an authority with brackets, after what says for whom. A bracket opens the host if
there is one, and only a colon and more may follow the closing one; otherwise the host ends at a
colon. -/
def bracketedHost (authority : List Char) : Except Error (List Char) :=
  let place := afterLast '@' authority
  match cutAt '[' place with
  | (before, some inside) =>
    let (host, after) := cutAt ']' inside
    let rest := after.getD []
    if before.isEmpty && (rest.isEmpty || rest.head? == some ':') then .ok host
    else .error .brackets
  | (_, none) => .ok (cutAt ':' place).1

/-- Checks the host of an authority with brackets. -/
def checkHost (host : List Char) : Except Error Unit :=
  if host.head? == some 'v' then
    if isLaterAddress host then .ok () else .error .laterAddress
  else if isIPv4 host then .error .bracketedIPv4
  else if isIPv6 host then .ok ()
  else .error (.noAddress host)

/-- Checks the brackets of an authority first, then its characters. -/
def checkAuthority (authority : List Char) : Except Error Unit := do
  match authority.contains '[', authority.contains ']' with
  | true, true => checkHost (← bracketedHost authority)
  | false, false => pure ()
  | _, _ => throw .brackets
  if authority.any hidesDelimiter then throw (.normalization authority)

/-- The parts of a URI. -/
def split (uri : List Char) : Except Error Parts := do
  let (scheme, rest) := splitScheme (clean uri)
  let (authority, rest) := splitAuthority rest
  checkAuthority authority
  let path := rest.takeWhile fun c ↦ c != '?' && c != '#'
  return ⟨scheme, authority, path⟩

/-! ## Names of documents -/

/-- A path that starts with a slash, a drive letter and a colon starts with the drive letter, in
lower case, instead. -/
def withDrive : List Char → List Char
  | '/' :: c :: ':' :: rest =>
    if c.isAlpha then c.toLower :: ':' :: rest else '/' :: c :: ':' :: rest
  | path => path

/-- The path of a file: an authority goes before it after two slashes. -/
def filePath (authority path : List Char) : List Char :=
  if authority.isEmpty || path.isEmpty then withDrive path else '/' :: '/' :: authority ++ path

/-- The name of the document with this URI. -/
def fileNameChars (uri : List Char) : Except Error (List Char) := do
  let parts ← split uri
  if parts.scheme == "file".toList then
    return filePath (percentDecode parts.authority) (percentDecode parts.path)
  else return uri

/-- The name of the document with this URI. -/
def fileName (uri : String) : Except Error String :=
  return String.ofList (← fileNameChars uri.toList)

/-- The scheme of a URI, if it has one. -/
def scheme? (uri : String) : Except Error (Option String) := do
  let parts ← split uri.toList
  return if parts.scheme.isEmpty then none else some (String.ofList parts.scheme)

/-! ## Wording -/

def Error.message : Error → String
  | .brackets => "Invalid IPv6 URL"
  | .laterAddress => "IPvFuture address is invalid"
  | .noAddress host =>
    quoted (String.ofList host) ++ " does not appear to be an IPv4 or IPv6 address"
  | .bracketedIPv4 => "An IPv4 address cannot be in brackets"
  | .normalization authority =>
    s!"netloc '{String.ofList authority}' contains invalid characters under NFKC normalization"

end CompletionServer.Uri
