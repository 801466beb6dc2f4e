import DruidOperator.Sprintf

/-!
# The Druid API (`pkg/druidapi`, `pkg/http`)

`makePath` joins the segments of an API path the way Go's `path.Join` does, with `.` and `..`
resolved, and writes the URL the way `URL.String` does, with the path escaped. The base is
always of the form `http://host:port`, which is what `GetRouterSvcUrl` returns, so parsing it
and printing it again gives it back.

The two controllers reach the API in the same way: `getRouterSvcUrl`, `getAuthCreds` and `httpDo`
are written for any client, and each controller instantiates them with its own requests.
-/

namespace DruidOperator.DruidApi

open Interaction Prog

/-- Resolve the segments of a path from left to right. `..` drops the segment before it; a
leading one stays unless the path is rooted. -/
def cleanSegments (rooted : Bool) : List (List Char) → List (List Char) → List (List Char)
  | acc, [] => acc.reverse
  | acc, seg :: segs =>
      if seg = [] ∨ seg = ['.'] then cleanSegments rooted acc segs
      else if seg = ['.', '.'] then
        match acc with
        | [] => cleanSegments rooted (if rooted then [] else [seg]) segs
        | top :: rest =>
            if top = ['.', '.'] then cleanSegments rooted (seg :: acc) segs
            else cleanSegments rooted rest segs
      else cleanSegments rooted (seg :: acc) segs

/-- `path.Clean`. -/
def cleanPath (path : List Char) : List Char :=
  let rooted := path.head? == some '/'
  let segs := cleanSegments rooted [] (path.splitOn '/')
  if rooted then '/' :: ['/'].intercalate segs
  else if segs = [] then ['.']
  else ['/'].intercalate segs

/-- `path.Join`: the non-empty elements, joined and cleaned. -/
def joinPath (elems : List (List Char)) : List Char :=
  match elems.filter (· ≠ []) with
  | [] => []
  | es => cleanPath (['/'].intercalate es)

/-- The characters `url.URL` leaves alone in a path. -/
def isPathChar (c : Char) : Bool :=
  c.isAlphanum || ['-', '_', '.', '~', '$', '&', '+', ',', '/', ':', ';', '=', '@'].contains c

def hexUpper (n : Nat) : Char :=
  if n < 10 then Char.ofNat ('0'.toNat + n) else Char.ofNat ('A'.toNat + (n - 10))

def escapeByte (b : UInt8) : List Char := ['%', hexUpper (b.toNat / 16), hexUpper (b.toNat % 16)]

def escapePath (path : List Char) : List Char :=
  path.flatMap fun c => if isPathChar c then [c] else (String.utf8EncodeChar c).flatMap escapeByte

/-- `URL.EscapedPath`: the path `*` stands for itself. -/
def escapedPath (path : List Char) : List Char := if path = ['*'] then path else escapePath path

/-- `MakePath`. -/
def makePath (baseURL componentType apiType : String) (additionalPaths : List String) : String :=
  let path := joinPath ["druid".toList, componentType.toList, "v1".toList, apiType.toList]
  let path := additionalPaths.foldl (fun path p => joinPath [path, p.toList]) path
  baseURL ++ "/" ++ String.ofList (escapedPath path)

theorem makePath_eq_append (baseURL componentType apiType : String) (adds : List String) :
    makePath baseURL componentType apiType adds =
      baseURL ++ makePath "" componentType apiType adds := by
  simp [makePath, String.append_assoc]

theorem makePath_ne_empty (baseURL componentType apiType : String) (adds : List String) :
    makePath baseURL componentType apiType adds ≠ "" := by
  intro h
  have := congrArg String.toList h
  simp [makePath] at this

example : makePath "http://r.ns:8088" "indexer" "task" ["a b", "shutdown"] =
    "http://r.ns:8088/druid/indexer/v1/task/a%20b/shutdown" := by decide +kernel

/-! ## The router -/

def druidRouterPort : String := "8088"

/-- The URL for the first service found. -/
def routerUrlOf (ns : String) (services : List String) : Except Error String :=
  if services.headD "" = "" then .error ⟨"router svc discovery fail", false⟩
  else .ok ("http://" ++ services.headD "" ++ "." ++ ns ++ ":" ++ druidRouterPort)

/-! ## Credentials -/

/-- `Auth`: where the credentials of the operator are kept. -/
structure Auth where
  type : String := ""
  secretNamespace : String := ""
  secretName : String := ""
  usernameKey : String := ""
  passwordKey : String := ""
deriving DecidableEq

structure BasicAuth where
  userName : String := ""
  password : String := ""
deriving DecidableEq

def operatorUserName : String := "OperatorUserName"
def operatorPassword : String := "OperatorPassword"

/-- The entries of the secret for the two keys. -/
def credentials (auth : Auth) (data : StrMap) : Except Error BasicAuth :=
  let userNameKey := if auth.usernameKey ≠ "" then auth.usernameKey else operatorUserName
  let passwordKey := if auth.passwordKey ≠ "" then auth.passwordKey else operatorPassword
  let missing (format key : String) : Error :=
    ⟨Fmt.sprintf format [key, auth.secretNamespace, auth.secretName], false⟩
  match data.lookup userNameKey with
  | none => .error (missing "username key %q not found in secret %s/%s" userNameKey)
  | some userName =>
      match data.lookup passwordKey with
      | none => .error (missing "password key %q not found in secret %s/%s" passwordKey)
      | some password => .ok ⟨userName, password⟩

/-! ## Clients -/

section Clients

variable {S : Signature}

/-- `GetRouterSvcUrl`, with the client's list of the services of the router. -/
protected def getRouterSvcUrl (listServices : Prog S Exit (Except Error (List String)))
    (ns : String) : Prog S Exit String := do
  let services ← listServices >>= orReturn
  orReturn (routerUrlOf ns services)

/-- `GetAuthCreds`, with the client's way to read a secret. -/
protected def getAuthCreds (getSecret : String → String → Prog S Exit (Except Error StrMap))
    (auth : Auth) : Prog S Exit BasicAuth :=
  if auth ≠ {} then do
    let data ← getSecret auth.secretNamespace auth.secretName >>= orReturn
    orReturn (credentials auth data)
  else return {}

/-- `DruidClient.Do`. A URL without a scheme never leaves the client. -/
protected def httpDo {ρ : Type} (url : String) (send : Prog S Exit (Except Error ρ)) :
    Prog S Exit ρ :=
  if url = "" then fail "unsupported protocol scheme \"\"" else send >>= orReturn

end Clients

end DruidOperator.DruidApi
