import ShejaneRuntime.WebFetch.Addresses

/-!
# Fetching a page

A fetch follows redirects by hand. On every hop the host is looked up once, all
addresses are checked, and the client connects to the first one.
-/

namespace ShejaneRuntime.WebFetch

structure UrlParts where
  scheme : String
  hostname : Option String
  username : Option String
  password : Option String
  deriving DecidableEq, Repr

/-- The functions of the language on texts. -/
structure Texts where
  upper : String → String
  lower : String → String
  repr : String → String
  urlsplit : String → Except String UrlParts
  urljoin : String → String → Except String String
  ipAddress : String → Option IPAddress

/-- An error of the client is answered; any other one goes up to the caller. -/
inductive Failure where
  | http (error : String)
  | other (error : String)
  deriving DecidableEq, Repr

/-- A lookup that is not answered, or a name that cannot be looked up. -/
inductive LookupFailure where
  | gaierror (exc : String)
  | other (exc : String)
  deriving DecidableEq, Repr

structure Request where
  method : String
  contentType : Option String
  content : Option String
  deriving DecidableEq, Repr

structure Response where
  status : ℕ
  location : Option String
  headers : List (String × String)
  chunks : List (List UInt8)
  failure : Option Failure
  deriving DecidableEq, Repr

/-- The world outside, hop by hop: name lookups, the host that the client asks to be
connected to for a URL, connections, and responses. -/
structure Network where
  getaddrinfo : ℕ → String → Except LookupFailure (List String)
  dial : ℕ → String → Except Failure String
  connect : ℕ → String → Except Failure Unit
  respond : ℕ → Except Failure Response

inductive FetchResult where
  | failed (error : String)
  | fetched (status : ℕ) (headers : List (String × String)) (body : List UInt8) (truncated : Bool)
  | raised (error : String)
  deriving DecidableEq, Repr

def Failure.result : Failure → FetchResult
  | .http error => .failed error
  | .other error => .raised error

/-- What goes on during one hop. -/
structure Hop where
  url : String
  lookups : List (Except LookupFailure (List String))
  connections : List String
  requests : List Request
  redirect : Option ℕ

def ALLOWED_SCHEMES : List String := ["http", "https"]

def MAX_RESPONSE_BYTES : ℕ := 2000000

def MAX_REDIRECTS : ℕ := 5

section

variable (texts : Texts)

def accepted (allowFakeIp : Bool) (ip : String) : Bool :=
  !(isPrivateIp texts.ipAddress ip && !(allowFakeIp && isFakeIpProxyAddress texts.ipAddress ip))

/-- The loop over the addresses of a lookup, with the one pinned so far. -/
def pinFirst (hostname : String) (allowFakeIp : Bool) :
    Option String → List String → Except String (Option String)
  | pinned, [] => .ok pinned
  | pinned, ip :: addresses =>
      if accepted texts allowFakeIp ip then
        pinFirst hostname allowFakeIp (some (pinned.getD ip)) addresses
      else .error s!"refusing private/loopback address {ip} for {hostname}"

def resolvePinned (lookup : Except LookupFailure (List String)) (hostname : String)
    (allowFakeIp : Bool) : Except FetchResult String :=
  match lookup with
  | .error (.gaierror exc) => .error (.failed s!"dns resolution failed: {exc}")
  | .error (.other exc) => .error (.raised exc)
  | .ok addresses =>
      match pinFirst texts hostname allowFakeIp none addresses with
      | .error reason => .error (.failed reason)
      | .ok none => .error (.failed s!"dns resolution returned no addresses for {hostname}")
      | .ok (some address) => .ok address

structure PinnedNetworkBackend where
  hostname : String
  address : String
  deriving DecidableEq, Repr

def PinnedNetworkBackend.connectTcp (backend : PinnedNetworkBackend) (host : String) :
    Except String String :=
  if texts.lower host ≠ backend.hostname then .error s!"unvalidated hostname: {host}"
  else .ok backend.address

/-- What is checked of a URL before its host is looked up. -/
def checkUrl (parts : UrlParts) : Except String String :=
  if parts.scheme ∉ ALLOWED_SCHEMES then .error s!"scheme {texts.repr parts.scheme} not allowed"
  else
    let hostname := parts.hostname.getD ""
    if hostname = "" then .error "missing hostname"
    else if parts.username ≠ none ∨ parts.password ≠ none then
      .error "URL credentials are not allowed"
    else .ok hostname

/-- The lookups that are made for a URL, and the backend of its transport. -/
def pinnedTransport (getaddrinfo : String → Except LookupFailure (List String)) (url : String) :
    List (Except LookupFailure (List String)) × Except FetchResult PinnedNetworkBackend :=
  match texts.urlsplit url with
  | .error error => ([], .error (.raised error))
  | .ok parts =>
      match checkUrl texts parts with
      | .error reason => ([], .error (.failed reason))
      | .ok hostname =>
          let lookup := getaddrinfo hostname
          ([lookup], match resolvePinned texts lookup hostname (parts.scheme == "https") with
            | .error result => .error result
            | .ok address => .ok { hostname := texts.lower hostname, address })

variable (network : Network) (contentType : String)

/-- One request: what goes on, and the response or why there is none. -/
def fetchHop (hop : ℕ) (url method body : String) : Hop × Except FetchResult Response :=
  let request : Request :=
    if method = "POST" then { method, contentType := some contentType, content := some body }
    else { method, contentType := none, content := none }
  let pinned := pinnedTransport texts (network.getaddrinfo hop) url
  let idle : Hop :=
    { url, lookups := pinned.1, connections := [], requests := [], redirect := none }
  match pinned.2 with
  | .error result => (idle, .error result)
  | .ok backend =>
      match network.dial hop url with
      | .error failure => (idle, .error failure.result)
      | .ok host =>
          match backend.connectTcp texts host with
          | .error error => (idle, .error (.failed s!"ConnectError: {error}"))
          | .ok address =>
              let connected := { idle with connections := [address] }
              match network.connect hop address with
              | .error failure => (connected, .error failure.result)
              | .ok () =>
                  let asked := { connected with requests := [request] }
                  match network.respond hop with
                  | .error failure => (asked, .error failure.result)
                  | .ok response => (asked, .ok response)

/-- The loop over the chunks of a body. -/
def readBody : List UInt8 → List (List UInt8) → List UInt8 × Bool
  | content, [] => (content, false)
  | content, chunk :: chunks =>
      let remaining := MAX_RESPONSE_BYTES - content.length
      if remaining < chunk.length then (content ++ chunk.take remaining, true)
      else readBody (content ++ chunk) chunks

def Response.read (response : Response) : FetchResult :=
  let body := readBody [] response.chunks
  match response.failure with
  | some failure =>
      if body.2 then .fetched response.status (response.headers.filter fun h ↦ h.2.length < 1024)
        body.1 true
      else failure.result
  | none =>
      .fetched response.status (response.headers.filter fun h ↦ h.2.length < 1024) body.1 body.2

/-- Where a response leads on to. -/
def Response.redirect (response : Response) : Option String :=
  if response.status ∈ [301, 302, 303, 307, 308] then response.location.filter (· ≠ "")
  else none

/-- The hops from one on, and the result. -/
def fetchFrom : ℕ → ℕ → String → String → String → List Hop × FetchResult
  | 0, _, _, _, _ => ([], .failed "too many redirects")
  | remaining + 1, hop, url, method, body =>
      let (here, outcome) := fetchHop texts network contentType hop url method body
      match outcome with
      | .error result => ([here], result)
      | .ok response =>
          match response.redirect with
          | none => ([here], response.read)
          | some location =>
              if MAX_REDIRECTS ≤ hop then ([here], .failed "too many redirects")
              else
                match texts.urljoin url location with
                | .error error => ([here], .raised error)
                | .ok next =>
                    let (hops, result) := fetchFrom remaining (hop + 1) next
                      (if response.status ∈ [301, 302, 303] then "GET" else method)
                      (if response.status ∈ [301, 302, 303] then "" else body)
                    ({ here with redirect := some response.status } :: hops, result)

def webFetch (url method body : String) : List Hop × FetchResult :=
  let method := texts.upper method
  if method ∉ ["GET", "POST"] then
    ([], .failed s!"method {texts.repr method} not allowed")
  else fetchFrom texts network contentType (MAX_REDIRECTS + 1) 0 url method body

end

end ShejaneRuntime.WebFetch
