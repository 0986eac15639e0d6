import Cookbook.Grid.Forwarding
import Cookbook.Grid.PeerKey

/-!
# Requests on their way to a peer

`grid_request_ex` puts a request together and sends it: over plain TCP as one text from a buffer of
8192 bytes, over TLS through an HTTP client, which takes the URL apart once more and gets the extra
header lines one by one. The server at the other end cuts the text into its request line and fields.
-/
namespace Cookbook.Grid

open Library.Text Server

/-! ## The URL of a peer -/

/-- The question mark. -/
@[simp] abbrev questionMark : UInt8 := 0x3F
/-- The number sign. -/
@[simp] abbrev numberSign : UInt8 := 0x23

/-- What `parse_peer_url` finds in a base URL. -/
structure PeerUrl where
  /-- `use_tls` -/
  useTls : Bool
  /-- `host` -/
  host : Bytes
  /-- `port` -/
  port : Bytes
  /-- `path_prefix` -/
  pathPrefix : Bytes
  deriving DecidableEq

/-- What stands behind the scheme of a base URL. -/
def splitAuthority (useTls : Bool) (p : Bytes) : PeerUrl :=
  let authority := p.takeWhile (· != slash)
  { useTls
    host := authority.takeWhile (· != colon)
    port :=
      match strchr colon authority with
      | some port => port.drop 1
      | none => if useTls then ascii "443" else ascii "80"
    pathPrefix := p.dropWhile (· != slash) }

/-- `parse_peer_url` -/
def parsePeerUrl (url : Bytes) : Option PeerUrl :=
  if ascii "https://" <+: url then some (splitAuthority true (url.drop 8))
  else if ascii "http://" <+: url then some (splitAuthority false (url.drop 7))
  else none

/-! ## The HTTP client -/

/-- What `http_url_parse` finds of a host, a path and a query. -/
structure HttpUrl where
  /-- `host`, null for an empty one. -/
  host : Option Bytes
  /-- `path` -/
  path : Bytes
  /-- `query` -/
  query : Option Bytes
  deriving DecidableEq

/-- The host of an authority behind its user: up to the bracket that closes an address, or up to the
last colon. An address without a closing bracket is no host. -/
def authorityHost (text : Bytes) : Option Bytes :=
  if text.head? = some 0x5B then
    if 0x5D ∈ text then some (text.takeWhile (· != 0x5D) ++ [0x5D]) else none
  else if colon ∈ text then some ((text.reverse.dropWhile (· != colon)).drop 1).reverse
  else some text

/-- `http_url_parse` -/
def httpUrlParse (url : Bytes) : Option HttpUrl :=
  (strstr (ascii "://") url).bind fun behindScheme =>
    let p := behindScheme.drop 3
    let ends := fun c => c != slash && c != questionMark && c != numberSign
    let authority := p.takeWhile ends
    let user := strchr 0x40 authority
    (authorityHost ((user.map (·.drop 1)).getD authority)).map fun host =>
      let p := p.dropWhile ends
      let path := p.takeWhile fun c => c != questionMark && c != numberSign
      let behind := p.dropWhile fun c => c != questionMark && c != numberSign
      { host := if host = [] then none else some host
        path := if path = [] then [slash] else path
        query :=
          if behind.head? = some questionMark then
            some ((behind.drop 1).takeWhile (· != numberSign))
          else none }

/-- The request target that `do_single_request` puts together. -/
def HttpUrl.target (url : HttpUrl) : Bytes :=
  match url.query with
  | some query => url.path ++ questionMark :: query
  | none => url.path

/-- The request target that `http_request_serialize` writes: what it is given, unless that can be
taken for a URL. -/
def serializedTarget (target : Bytes) : Bytes :=
  match httpUrlParse target with
  | some inner => inner.path
  | none => target

/-- Field lines. -/
def writeFields (fields : Headers) : Bytes := fields.flatMap fun field => headerLine field.1 field.2

/-- `Host` -/
def hostHeaderName : Bytes := ascii "Host"
/-- `Connection` -/
def connectionHeaderName : Bytes := ascii "Connection"
/-- `User-Agent` -/
def userAgentHeaderName : Bytes := ascii "User-Agent"

/-- A field that the client's defaults add to a request: one that is there is kept. -/
def addHeader (headers : Headers) (field : Bytes × Bytes) : Headers :=
  if (findHeader headers field.1).isSome then headers else setHeader headers field.1 field.2

/-- The fields of a request: `apply_defaults`, and the connection. -/
def clientFields (host : Bytes) (defaults : Headers) : Headers :=
  setHeader
    (addHeader (defaults.foldl addHeader (setHeader [] hostHeaderName host))
      (userAgentHeaderName, ascii "apennines/1.0"))
    connectionHeaderName (ascii "close")

/-- A request line. -/
def requestLine (method target : Bytes) : Bytes :=
  method ++ space :: (target ++ ascii " HTTP/1.1" ++ crlf)

/-- `https_client_request` without a body, for a host that can be reached: the text that is sent, none
for a URL without a host. -/
def httpsClientRequest (method url : Bytes) (defaults : Headers) : Option Bytes :=
  (httpUrlParse url).bind fun parsed =>
    parsed.host.map fun host =>
      requestLine method (serializedTarget parsed.target) ++
        writeFields (clientFields host defaults) ++ crlf

/-! ## The request -/

/-- The chain that a request carries. -/
def viaHeader (originId : Bytes) (viaChain : Option Bytes) : Bytes :=
  snprintf 1024
    (match viaChain with
    | some chain => if chain = [] then originId else chain ++ comma :: originId
    | none => originId)

/-- The loop over the extra header lines: a value is cut to its buffer of 512 bytes. -/
def setExtraHeaders : Nat → Bytes → Headers → Headers
  | 0, _, headers => headers
  | fuel + 1, line, headers =>
    if line = [] then headers
    else
      let eol := strstr crlf line
      let text := line.take (line.length - (eol.map List.length).getD 0)
      let headers :=
        match strchr colon text with
        | none => headers
        | some value =>
          setHeader headers (text.takeWhile (· != colon))
            (snprintf 512 ((value.drop 1).dropWhile (· == space)))
      match eol with
      | none => headers
      | some rest => setExtraHeaders fuel (rest.drop crlf.length) headers

/-- `http_method` -/
def httpMethod (method : Bytes) : Bytes :=
  if method ∈ [ascii "POST", ascii "PUT", ascii "DELETE", ascii "HEAD"] then method else ascii "GET"

/-- The URL that the TLS client gets. -/
def fullUrl (peer : PeerUrl) (path : Bytes) : Bytes :=
  snprintf 4096 (ascii "https://" ++ peer.host ++ colon :: peer.port ++ peer.pathPrefix ++ path)

/-- The text of a request over plain TCP. -/
def requestText (peer : PeerUrl) (method path via : Bytes) (hopCount : Int) (extra : Bytes) : Bytes :=
  requestLine method (peer.pathPrefix ++ path) ++
    headerLine hostHeaderName (peer.host ++ colon :: peer.port) ++
    headerLine viaHeaderName via ++ headerLine hopCountHeaderName (decimal (hopCount + 1)) ++
    extra ++ headerLine connectionHeaderName (ascii "close") ++ crlf

/-- `grid_request_ex`, up to the text that is sent: none when nothing is. Over plain TCP as many bytes
are sent as the uncut text has, so one that does not fit goes out with what lies behind the buffer. -/
def gridRequestEx (peerUrl method path originId : Bytes) (viaChain : Option Bytes) (hopCount : Int)
    (extraHeaders : Option Bytes) : Outcome (Option Bytes) :=
  match parsePeerUrl peerUrl with
  | none => .done none
  | some peer =>
    let via := viaHeader originId viaChain
    let extra := extraHeaders.getD []
    if peer.useTls then
      let defaults := setHeader [] viaHeaderName via
      let defaults := setHeader defaults hopCountHeaderName (decimal (hopCount + 1))
      .done (httpsClientRequest (httpMethod method) (fullUrl peer path)
        (setExtraHeaders extra.length extra defaults))
    else
      (fitted 8192 (requestText peer method path via hopCount extra)).bind fun text =>
        .done (some text)

/-! ## The server at the other end -/

/-- The path of a request target: what stands in front of its query. -/
def targetPath (target : Bytes) : Bytes := target.takeWhile (· != questionMark)

/-- A text up to the end of its first line. -/
def firstLine (text : Bytes) : Bytes :=
  match strstr crlf text with
  | none => text
  | some rest => text.take (text.length - rest.length)

/-- `parse_request`: the request that an HTTP server hands to its handlers. The request target ends
at a blank or with its line. -/
def exposed (text : Bytes) : Request :=
  let line := firstLine text
  let target := ((line.dropWhile (· != space)).drop 1).takeWhile (· != space)
  { method := line.takeWhile (· != space)
    localUri := targetPath target
    queryString := (strchr questionMark target).map (·.drop 1)
    headers :=
      match strstr crlf text with
      | none => []
      | some rest => receiveHeaders (rest.drop crlf.length)
    contentLength := -1
    body := []
    behindBody := [] }

/-! ## The characters of a URL -/

/-- The parts of a base URL are written in its characters, or are a default port. -/
theorem parsePeerUrl_chars {url : Bytes} {peer : PeerUrl} (parsed : parsePeerUrl url = some peer) :
    ∀ c ∈ peer.host ++ peer.port ++ peer.pathPrefix,
      c ∈ url ∨ c ∈ ascii "443" ∨ c ∈ ascii "80" := by
  have split (useTls : Bool) (p : Bytes) : ∀ c ∈ (splitAuthority useTls p).host ++
      (splitAuthority useTls p).port ++ (splitAuthority useTls p).pathPrefix,
      c ∈ p ∨ c ∈ ascii "443" ∨ c ∈ ascii "80" := by
    intro c member
    have authority : ∀ c ∈ p.takeWhile (· != slash), c ∈ p := fun _ inside =>
      (List.takeWhile_sublist _).mem inside
    rcases List.mem_append.mp member with front | pathPrefix
    · rcases List.mem_append.mp front with host | port
      · exact .inl (authority c ((List.takeWhile_sublist _).mem host))
      · simp only [splitAuthority, strchr] at port
        split at port
        · next behind found =>
          have inside : c ∈ (p.takeWhile (· != slash)).dropWhile (· != colon) := by
            split at found
            · cases found
            · cases found
              next shape =>
                rw [shape]
                exact (List.drop_sublist _ _).mem port
          exact .inl (authority c ((List.dropWhile_sublist _).mem inside))
        · split at port
          · exact .inr (.inl port)
          · exact .inr (.inr port)
    · exact .inl ((List.dropWhile_sublist _).mem pathPrefix)
  unfold parsePeerUrl at parsed
  split at parsed
  · cases parsed
    intro c member
    exact (split _ _ c member).imp_left fun inside => (List.drop_sublist _ _).mem inside
  · split at parsed
    · cases parsed
      intro c member
      exact (split _ _ c member).imp_left fun inside => (List.drop_sublist _ _).mem inside
    · cases parsed

/-- What a search for a character finds is a part of the text. -/
theorem strchr_sublist {stop : UInt8} {text found : Bytes} (search : strchr stop text = some found) :
    found.Sublist text := by
  unfold strchr at search
  split at search
  · cases search
  · next shape =>
    cases search
    rw [← shape]
    exact List.dropWhile_sublist _

/-- A host is written in the characters of its authority, or is closed by a bracket. -/
theorem authorityHost_chars {text host : Bytes} (found : authorityHost text = some host) :
    ∀ c ∈ host, c ∈ text ∨ c = 0x5D := by
  unfold authorityHost at found
  intro c member
  split at found
  · split at found
    · cases found
      rcases List.mem_append.mp member with front | bracket
      · exact .inl ((List.takeWhile_sublist _).mem front)
      · exact .inr (List.mem_singleton.mp bracket)
    · cases found
  · split at found
    · cases found
      have inside := List.mem_reverse.mp member
      exact .inl (List.mem_reverse.mp ((List.dropWhile_sublist _).mem
        ((List.drop_sublist _ _).mem inside)))
    · cases found
      exact .inl member

/-- A host is written in the characters of the authority of its URL, or is closed by a bracket. -/
theorem httpUrlParse_host {url rest host : Bytes} {parsed : HttpUrl}
    (search : strstr (ascii "://") url = some (ascii "://" ++ rest))
    (found : httpUrlParse url = some parsed) (named : parsed.host = some host) :
    ∀ c ∈ host, c ∈ (rest.takeWhile fun c => c != slash && c != questionMark && c != numberSign) ∨
      c = 0x5D := by
  have dropped : (ascii "://" ++ rest).drop 3 = rest := rfl
  unfold httpUrlParse at found
  rw [search, Option.bind_some] at found
  obtain ⟨authority, reached, rfl⟩ := Option.map_eq_some_iff.mp found
  simp only at named
  split at named
  · cases named
  · cases named
    rw [dropped] at reached
    intro c member
    refine (authorityHost_chars reached c member).imp_left fun inside => ?_
    generalize shape : strchr (0x40 : UInt8) (rest.takeWhile fun c =>
      c != slash && c != questionMark && c != numberSign) = user at inside
    cases user with
    | none => exact inside
    | some user => exact (strchr_sublist shape).mem ((List.drop_sublist _ _).mem inside)

/-- What is taken of a cut text before a stop stands before the stop in the whole text. -/
theorem takeWhile_cut {p : UInt8 → Bool} {front rest : Bytes} {stop : UInt8} (size : Nat)
    (stops : p stop = false) : ((front ++ stop :: rest).take size).takeWhile p <+: front := by
  have taken : ((front ++ stop :: rest).take size).takeWhile p <+: front ++ stop :: rest :=
    (List.takeWhile_prefix _).trans (List.take_prefix _ _)
  rcases Nat.lt_or_ge front.length (((front ++ stop :: rest).take size).takeWhile p).length with
    longer | shorter
  · have here : front ++ [stop] <+: front ++ stop :: rest := ⟨rest, by simp⟩
    have inside : front ++ [stop] <+: ((front ++ stop :: rest).take size).takeWhile p :=
      List.prefix_of_prefix_length_le here taken (by simpa [Nat.succ_le_iff] using longer)
    have kept := List.mem_takeWhile_imp (inside.subset (List.mem_append_right _ (.head _)))
    rw [stops] at kept
    cases kept
  · exact List.prefix_of_prefix_length_le taken (List.prefix_append _ _) shorter

/-- A request target has no character more often than its URL, but for the two that may be added. -/
theorem httpUrlParse_count {url : Bytes} {parsed : HttpUrl} (found : httpUrlParse url = some parsed)
    {c : UInt8} (other : c ≠ slash) (noMark : c ≠ questionMark) :
    parsed.path.count c ≤ url.count c ∧ parsed.target.count c ≤ url.count c := by
  unfold httpUrlParse at found
  obtain ⟨behind, search, found⟩ := Option.bind_eq_some_iff.mp found
  obtain ⟨host, -, rfl⟩ := Option.map_eq_some_iff.mp found
  generalize rest : ((behind.drop 3).dropWhile fun c =>
    c != slash && c != questionMark && c != numberSign) = p
  have inside : p.count c ≤ url.count c := by
    rw [← rest]
    exact ((List.dropWhile_sublist _).trans ((List.drop_sublist _ _).trans
      (strstr_some search).1.sublist)).count_le c
  have whole : (p.takeWhile fun c => c != questionMark && c != numberSign).count c +
      (p.dropWhile fun c => c != questionMark && c != numberSign).count c = p.count c := by
    rw [← List.count_append, List.takeWhile_append_dropWhile]
  have path : (if (p.takeWhile fun c => c != questionMark && c != numberSign) = [] then [slash]
      else p.takeWhile fun c => c != questionMark && c != numberSign).count c ≤
      (p.takeWhile fun c => c != questionMark && c != numberSign).count c := by
    split
    · simp [Ne.symm other]
    · exact Nat.le_refl _
  refine ⟨by simp only; omega, ?_⟩
  unfold HttpUrl.target
  simp only
  split
  · next query shape =>
    split at shape
    · cases shape
      have query := (((List.takeWhile_sublist _).trans (List.drop_sublist _ _)).count_le c :
        ((((p.dropWhile fun c => c != questionMark && c != numberSign).drop 1).takeWhile
          (· != numberSign)).count c) ≤ _)
      rw [List.count_append, List.count_cons_of_ne (Ne.symm noMark)]
      omega
    · cases shape
  · omega

/-! ## The path of a URL -/

/-- The parts of a base URL: the host and the port hold no slash, the path prefix starts with one,
and together they are no longer than the URL. -/
theorem parsePeerUrl_shape {url : Bytes} {peer : PeerUrl} (parsed : parsePeerUrl url = some peer) :
    slash ∉ peer.host ++ peer.port ∧
      (peer.pathPrefix = [] ∨ ∃ rest, peer.pathPrefix = slash :: rest) ∧
      peer.host.length + peer.port.length + peer.pathPrefix.length ≤ url.length := by
  have split (useTls : Bool) (p : Bytes) : slash ∉ (splitAuthority useTls p).host ++
      (splitAuthority useTls p).port ∧ ((splitAuthority useTls p).pathPrefix = [] ∨
        ∃ rest, (splitAuthority useTls p).pathPrefix = slash :: rest) ∧
      (splitAuthority useTls p).host.length + (splitAuthority useTls p).port.length +
        (splitAuthority useTls p).pathPrefix.length ≤ p.length + 3 := by
    have authorityFree : slash ∉ p.takeWhile (· != slash) := fun member => by
      simpa using List.mem_takeWhile_imp member
    have whole := congrArg List.length (List.takeWhile_append_dropWhile (p := (· != slash)) (l := p))
    rw [List.length_append] at whole
    have hostPart := List.takeWhile_append_dropWhile (p := (· != colon))
      (l := p.takeWhile (· != slash))
    have hostLength := congrArg List.length hostPart
    rw [List.length_append] at hostLength
    have ports : slash ∉ ascii "443" ∧ slash ∉ ascii "80" ∧ (ascii "443").length = 3 ∧
        (ascii "80").length = 2 := by decide +kernel
    have hostFree : slash ∉ (splitAuthority useTls p).host := fun member =>
      authorityFree ((List.takeWhile_sublist _).mem member)
    have port : slash ∉ (splitAuthority useTls p).port ∧
        (splitAuthority useTls p).port.length ≤
          ((p.takeWhile (· != slash)).dropWhile (· != colon)).length + 3 := by
      simp only [splitAuthority, strchr]
      cases behind : (p.takeWhile (· != slash)).dropWhile (· != colon) with
      | nil => cases useTls <;> simp [ports]
      | cons c rest =>
        constructor
        · intro member
          have inside := (List.dropWhile_sublist (l := p.takeWhile (· != slash)) (· != colon)).mem
            (behind ▸ List.mem_of_mem_drop member)
          exact authorityFree inside
        · simp
          omega
    refine ⟨by simp [hostFree, port.1], ?_, ?_⟩
    · cases behind : p.dropWhile (· != slash) with
      | nil => exact .inl behind
      | cons c rest =>
        have stop := List.head?_dropWhile_not (· != slash) p
        rw [behind] at stop
        have mark : c = slash := by simpa using stop
        exact .inr ⟨rest, by rw [← mark]; exact behind⟩
    · have portLength := port.2
      simp only [splitAuthority] at portLength ⊢
      omega
  unfold parsePeerUrl at parsed
  split at parsed
  · next front =>
    cases parsed
    have long := front.length_le
    have parts := split true (url.drop 8)
    rw [List.length_drop] at parts
    exact ⟨parts.1, parts.2.1, by simp [ascii] at long; omega⟩
  · split at parsed
    · next front =>
      cases parsed
      have long := front.length_le
      have parts := split false (url.drop 7)
      rw [List.length_drop] at parts
      exact ⟨parts.1, parts.2.1, by simp [ascii] at long; omega⟩
    · cases parsed

/-- The path of a URL holds neither of the delimiters behind it. -/
theorem httpUrlParse_plain {url : Bytes} {parsed : HttpUrl} (found : httpUrlParse url = some parsed) :
    ∀ c ∈ parsed.path, c ≠ questionMark ∧ c ≠ numberSign := by
  unfold httpUrlParse at found
  obtain ⟨behind, -, found⟩ := Option.bind_eq_some_iff.mp found
  obtain ⟨host, -, rfl⟩ := Option.map_eq_some_iff.mp found
  intro c member
  simp only at member
  split at member
  · rw [List.mem_singleton.mp member]
    decide
  · simpa using List.mem_takeWhile_imp member

/-- In a URL without a query the path is a slash, or ends the URL behind its scheme. -/
theorem httpUrlParse_path {url : Bytes} {parsed : HttpUrl} (found : httpUrlParse url = some parsed)
    (plain : ∀ c ∈ url, c ≠ questionMark ∧ c ≠ numberSign) :
    parsed.path = [slash] ∨ ∃ front, url = front ++ parsed.path ∧ ascii "://" <:+: front := by
  unfold httpUrlParse at found
  obtain ⟨behind, search, found⟩ := Option.bind_eq_some_iff.mp found
  obtain ⟨host, -, rfl⟩ := Option.map_eq_some_iff.mp found
  obtain ⟨⟨front, whole⟩, ⟨rest, marked⟩⟩ := strstr_some search
  have dropped : behind.drop 3 = rest := by
    rw [← marked]
    rfl
  simp only [dropped]
  split
  · exact .inl rfl
  · right
    refine ⟨front ++ ascii "://" ++ rest.takeWhile fun c =>
      c != slash && c != questionMark && c != numberSign, ?_, ?_⟩
    · have kept : ((rest.dropWhile fun c => c != slash && c != questionMark && c != numberSign).takeWhile
          fun c => c != questionMark && c != numberSign) =
          rest.dropWhile fun c => c != slash && c != questionMark && c != numberSign := by
        rw [List.takeWhile_eq_self_iff]
        intro c member
        have inside : c ∈ url := by
          rw [← whole, ← marked]
          exact List.mem_append_right _ (List.mem_append_right _
            ((List.dropWhile_sublist _).mem member))
        simpa using plain c inside
      rw [kept, List.append_assoc, List.takeWhile_append_dropWhile, ← whole, ← marked,
        List.append_assoc]
    · rw [List.append_assoc]
      exact ⟨front, _, List.append_assoc _ _ _⟩

/-- The path of a URL, behind an authority, is what stands in front of a query. -/
theorem httpUrlParse_full {authority path : Bytes} {parsed : HttpUrl}
    (found : httpUrlParse (ascii "https://" ++ authority ++ slash :: path) = some parsed)
    (plain : ∀ c ∈ authority, c ≠ slash ∧ c ≠ questionMark ∧ c ≠ numberSign) :
    parsed.path = (slash :: path).takeWhile (fun c => c != questionMark && c != numberSign) ∧
      targetPath parsed.target = parsed.path ∧
      (questionMark ∉ path → numberSign ∉ path → parsed.target = slash :: path) := by
  have search : strstr (ascii "://") (ascii "https://" ++ authority ++ slash :: path) =
      some (ascii "://" ++ (authority ++ slash :: path)) := by
    have first := @strstr_first _ _ (ascii "https") [slash, slash] (authority ++ slash :: path) colon
      (by decide +kernel)
    simpa [ascii] using first
  have dropped : (ascii "://" ++ (authority ++ slash :: path)).drop 3 = authority ++ slash :: path :=
    rfl
  have behind : ((authority ++ slash :: path).dropWhile fun c =>
      c != slash && c != questionMark && c != numberSign) = slash :: path :=
    dropWhile_stop path slash (by simpa [and_assoc] using plain) (by decide)
  unfold httpUrlParse at found
  rw [search, Option.bind_some] at found
  obtain ⟨host, -, rfl⟩ := Option.map_eq_some_iff.mp found
  have nonempty : ((slash :: path).takeWhile fun c => c != questionMark && c != numberSign) ≠ [] := by
    simp
  simp only [dropped, behind, if_neg nonempty, true_and]
  have pathFree : questionMark ∉ (slash :: path).takeWhile fun c =>
      c != questionMark && c != numberSign := fun member => by
    simpa using List.mem_takeWhile_imp member
  constructor
  · unfold HttpUrl.target targetPath
    simp only
    split
    · exact takeWhile_ne_stop pathFree
    · exact List.takeWhile_eq_self_iff.mpr (accepts_of_notMem pathFree)
  · intro noQuery noFragment
    have all : ∀ c ∈ slash :: path, (c != questionMark && c != numberSign) = true := by
      intro c member
      rcases List.mem_cons.mp member with rfl | inside
      · decide
      · have query : c ≠ questionMark := fun same => noQuery (same ▸ inside)
        have fragment : c ≠ numberSign := fun same => noFragment (same ▸ inside)
        simp [query, fragment]
    have none : ((slash :: path).dropWhile fun c => c != questionMark && c != numberSign) = [] :=
      dropWhile_all all
    unfold HttpUrl.target
    simp only [none, List.head?_nil, reduceCtorEq, if_false]
    exact List.takeWhile_eq_self_iff.mpr all

/-! ## Field lines are read back -/

/-- A field whose line can be read back. -/
structure LineSafe (field : Bytes × Bytes) : Prop where
  /-- It has a name. -/
  named : field.1 ≠ []
  /-- The name ends at the colon. -/
  name : colon ∉ field.1 ∧ carriageReturn ∉ field.1
  /-- The value ends at the end of the line. -/
  value : ¬ crlf <:+: field.2

/-- Every field has a line. -/
theorem length_writeFields (fields : Headers) : fields.length ≤ (writeFields fields).length := by
  induction fields with
  | nil => simp
  | cons field fields ih =>
    have line : 0 < (headerLine field.1 field.2).length := by
      have ending : (crlf).length = 2 := rfl
      simp only [headerLine, List.length_append]
      omega
    simp only [writeFields, List.flatMap_cons, List.length_append, List.length_cons] at ih ⊢
    omega

/-- Field lines are read back as fields, without the blanks in front of the values. -/
theorem parseHeaders_writeFields (fields : Headers) (rest : Bytes) (fuel : Nat) (headers : Headers)
    (distinct : Distinct (headers ++ fields)) (safe : ∀ field ∈ fields, LineSafe field)
    (enough : fields.length < fuel) :
    parseHeaders fuel (writeFields fields ++ crlf ++ rest) headers =
      headers ++ fields.map fun field => (field.1, field.2.dropWhile (· == space)) := by
  induction fields generalizing fuel headers with
  | nil =>
    cases fuel with
    | zero => cases enough
    | succ fuel =>
      have found : strstr crlf (crlf ++ rest) = some (crlf ++ rest) := strstr_prefix crlf rest
      simp [parseHeaders, writeFields, found]
  | cons field fields ih =>
    have line := safe field (by simp)
    cases fuel with
    | zero => cases enough
    | succ fuel =>
      have shape : writeFields (field :: fields) ++ crlf ++ rest =
          headerLine field.1 field.2 ++ (writeFields fields ++ crlf ++ rest) := by
        simp [writeFields]
      have placed := setHeader_fresh (field.2.dropWhile (· == space)) distinct.fresh
      have behind : Distinct ((headers ++ [(field.1, field.2.dropWhile (· == space))]) ++ fields) := by
        unfold Distinct at distinct ⊢
        rw [List.append_assoc]
        simpa [List.pairwise_append] using distinct
      rw [shape, parseHeaders_field _ _ _ _ _ line.named line.name line.value, placed,
        ih fuel _ behind (fun field member => safe field (by simp [member]))
          (by simpa using enough)]
      simp

/-- The client gets the fields of extra lines, with their values cut. -/
theorem setExtraHeaders_writeFields (fields : Headers) (fuel : Nat) (headers : Headers)
    (distinct : Distinct (headers ++ fields)) (safe : ∀ field ∈ fields, LineSafe field)
    (enough : fields.length ≤ fuel) :
    setExtraHeaders fuel (writeFields fields) headers =
      headers ++ fields.map fun field =>
        (field.1, snprintf 512 (field.2.dropWhile (· == space))) := by
  induction fields generalizing fuel headers with
  | nil => cases fuel <;> simp [setExtraHeaders, writeFields]
  | cons field fields ih =>
    have line := safe field (by simp)
    cases fuel with
    | zero => cases enough
    | succ fuel =>
      have shape : writeFields (field :: fields) =
          (field.1 ++ ascii ": " ++ field.2) ++ (crlf ++ writeFields fields) := by
        simp [writeFields, headerLine]
      have found : strstr crlf ((field.1 ++ ascii ": " ++ field.2) ++ (crlf ++ writeFields fields)) =
          some (crlf ++ writeFields fields) := by
        simpa [headerLine] using strstr_line (writeFields fields) line.name.2 line.value
      have cut : ((field.1 ++ ascii ": " ++ field.2) ++ (crlf ++ writeFields fields)).take
          (((field.1 ++ ascii ": " ++ field.2) ++ (crlf ++ writeFields fields)).length -
            (crlf ++ writeFields fields).length) = field.1 ++ ascii ": " ++ field.2 := by
        rw [List.length_append, Nat.add_sub_cancel, List.take_left]
      have nonempty : (field.1 ++ ascii ": " ++ field.2) ++ (crlf ++ writeFields fields) ≠ [] := by
        simp [line.named]
      have value : strchr colon (field.1 ++ ascii ": " ++ field.2) =
          some (colon :: space :: field.2) := by
        rw [List.append_assoc]
        exact strchr_stop _ line.name.1
      have name : (field.1 ++ ascii ": " ++ field.2).takeWhile (· != colon) = field.1 := by
        rw [List.append_assoc]
        exact takeWhile_ne_stop line.name.1
      have trimmed : (space :: field.2).dropWhile (· == space) =
          field.2.dropWhile (· == space) := by simp
      have placed := setHeader_fresh (snprintf 512 (field.2.dropWhile (· == space))) distinct.fresh
      have behind : Distinct ((headers ++
          [(field.1, snprintf 512 (field.2.dropWhile (· == space)))]) ++ fields) := by
        unfold Distinct at distinct ⊢
        rw [List.append_assoc]
        simpa [List.pairwise_append] using distinct
      rw [shape, setExtraHeaders, if_neg nonempty]
      simp only [found, Option.map_some, Option.getD_some, cut, value, name, List.drop_left,
        List.drop_succ_cons, List.drop_zero, trimmed, placed]
      rw [ih fuel _ behind (fun field member => safe field (by simp [member]))
        (by simpa using enough)]
      simp

/-- Fields that are added to others behind them. -/
theorem foldl_addHeader (fields headers : Headers) (distinct : Distinct (headers ++ fields)) :
    fields.foldl addHeader headers = headers ++ fields := by
  induction fields generalizing headers with
  | nil => simp
  | cons field fields ih =>
    have fresh := distinct.fresh
    have absent : findHeader headers field.1 = none := by
      simp only [findHeader, Option.map_eq_none_iff, List.find?_eq_none]
      intro known member
      simp [fresh known member]
    have added : addHeader headers field = headers ++ [field] := by
      simp [addHeader, absent, setHeader_fresh field.2 fresh]
    rw [List.foldl_cons, added, ih _ (by simpa using distinct)]
    simp

/-- The fields of the client's request. -/
theorem clientFields_eq (host : Bytes) (defaults : Headers)
    (distinct : Distinct ((hostHeaderName, host) :: (defaults ++
      [(userAgentHeaderName, ascii "apennines/1.0"), (connectionHeaderName, ascii "close")]))) :
    clientFields host defaults = (hostHeaderName, host) :: (defaults ++
      [(userAgentHeaderName, ascii "apennines/1.0"), (connectionHeaderName, ascii "close")]) := by
  have whole : Distinct ([(hostHeaderName, host)] ++ (defaults ++
      [(userAgentHeaderName, ascii "apennines/1.0")] ++
        [(connectionHeaderName, ascii "close")])) := by simpa using distinct
  have front : Distinct ([(hostHeaderName, host)] ++ (defaults ++
      [(userAgentHeaderName, ascii "apennines/1.0")])) := by
    rw [← List.append_assoc] at whole
    exact (List.pairwise_append.mp whole).1
  have folded := foldl_addHeader _ _ front
  rw [List.foldl_append, List.foldl_cons, List.foldl_nil] at folded
  have fresh := @Distinct.fresh ([(hostHeaderName, host)] ++ (defaults ++
    [(userAgentHeaderName, ascii "apennines/1.0")])) [] (connectionHeaderName, ascii "close")
    (by rw [List.append_assoc]; exact whole)
  unfold clientFields
  rw [show setHeader [] hostHeaderName host = [(hostHeaderName, host)] from rfl, folded,
    setHeader_fresh _ fresh]
  simp

/-- A field that is there is found by its name. -/
theorem findHeader_of_mem {fields : Headers} {name value : Bytes} (distinct : Distinct fields)
    (member : (name, value) ∈ fields) : findHeader fields name = some value := by
  induction fields with
  | nil => cases member
  | cons field fields ih =>
    have parts := List.pairwise_cons.mp distinct
    unfold findHeader at ih ⊢
    rw [List.find?_cons]
    rcases List.mem_cons.mp member with same | behind
    · subst same
      simp [sameName]
    · rw [show sameName field.1 name = false from parts.1 _ behind]
      exact ih parts.2 behind

/-- A field that is not there is not found. -/
theorem findHeader_absent {fields : Headers} {name : Bytes}
    (absent : ∀ field ∈ fields, sameName field.1 name = false) : findHeader fields name = none := by
  simp only [findHeader, Option.map_eq_none_iff, List.find?_eq_none]
  intro field member
  simp [absent field member]

/-- The fields of two parts. -/
theorem findHeader_append (front back : Headers) (name : Bytes) :
    findHeader (front ++ back) name = (findHeader front name).or (findHeader back name) := by
  unfold findHeader
  rw [List.find?_append]
  cases front.find? fun field => sameName field.1 name <;> rfl

/-- A change of the values does not change where a field is found. -/
theorem findHeader_map (change : Bytes → Bytes) (fields : Headers) (name : Bytes) :
    findHeader (fields.map fun field => (field.1, change field.2)) name =
      (findHeader fields name).map change := by
  unfold findHeader
  rw [List.find?_map]
  simp [Function.comp_def]

/-- What a first line is made of. -/
theorem firstLine_whole (text rest : Bytes) (unbroken : ¬ crlf <:+: text) :
    firstLine (text ++ (crlf ++ rest)) = text := by
  have found : strstr crlf (text ++ (crlf ++ rest)) = some (crlf ++ rest) :=
    strstr_pair (by decide) rest unbroken
  rw [firstLine, found]
  simp only [List.length_append, Nat.add_sub_cancel, List.take_left]

/-- A text is its own first line exactly when it has no line end. -/
theorem firstLine_cases (text : Bytes) :
    (¬ crlf <:+: text ∧ firstLine text = text) ∨
      ∃ rest, text = firstLine text ++ (crlf ++ rest) ∧ ¬ crlf <:+: firstLine text := by
  cases search : strstr crlf text with
  | none => exact .inl ⟨strstr_none_iff.mp search, by rw [firstLine, search]⟩
  | some found =>
    obtain ⟨front, more, rfl, rfl, least⟩ := strstr_split search
    have line : firstLine (front ++ (crlf ++ more)) = front := by
      rw [firstLine, search]
      simp only [List.length_append, Nat.add_sub_cancel, List.take_left]
    refine .inr ⟨more, by rw [line], ?_⟩
    rw [line]
    rintro ⟨before, behind, rfl⟩
    have early := least before (behind ++ (crlf ++ more)) (by simp)
    have two : crlf.length = 2 := rfl
    simp only [List.length_append, two] at early
    omega

/-- The path that a server exposes of a request target: what stands in front of a blank, a line end
and a query. -/
def exposedPath (target : Bytes) : Bytes :=
  targetPath ((firstLine target).takeWhile (· != space))

/-- It is a front of the target. -/
theorem exposedPath_starts (target : Bytes) : exposedPath target <+: target := by
  have line : firstLine target <+: target := by
    rcases firstLine_cases target with ⟨-, whole⟩ | ⟨rest, whole, -⟩
    · rw [whole]
    · exact ⟨_, whole.symm⟩
  exact ((List.takeWhile_prefix _).trans (List.takeWhile_prefix _)).trans line

/-- It holds none of the three. -/
theorem exposedPath_plain (target : Bytes) :
    questionMark ∉ exposedPath target ∧ space ∉ exposedPath target ∧
      ¬ crlf <:+: exposedPath target := by
  refine ⟨fun member => by simpa using List.mem_takeWhile_imp member, fun member => ?_,
    fun occurs => ?_⟩
  · simpa using List.mem_takeWhile_imp ((List.takeWhile_prefix _).subset member)
  · have inLine := occurs.trans
      ((List.takeWhile_prefix _).trans (List.takeWhile_prefix _)).isInfix
    rcases firstLine_cases target with ⟨unbroken, whole⟩ | ⟨rest, -, unbroken⟩
    · exact unbroken (whole ▸ inLine)
    · exact unbroken inLine

/-- It is a front of the path of the target. -/
theorem exposedPath_targetPath (target : Bytes) : exposedPath target <+: targetPath target := by
  obtain ⟨rest, whole⟩ := exposedPath_starts target
  have kept : targetPath target = exposedPath target ++ rest.takeWhile (· != questionMark) := by
    conv_lhs => rw [← whole]
    exact List.takeWhile_append_of_pos (accepts_of_notMem (exposedPath_plain target).1)
  exact ⟨_, kept.symm⟩

/-- A target without the three is exposed as it is. -/
theorem exposedPath_self {target : Bytes} (noQuery : questionMark ∉ target)
    (noBlank : space ∉ target) (unbroken : ¬ crlf <:+: target) : exposedPath target = target := by
  have line : firstLine target = target := by
    rcases firstLine_cases target with ⟨-, whole⟩ | ⟨rest, whole, -⟩
    · exact whole
    · exact absurd ⟨_, rest, by rw [List.append_assoc]; exact whole.symm⟩ unbroken
  rw [exposedPath, targetPath, line, List.takeWhile_eq_self_iff.mpr (accepts_of_notMem noBlank),
    List.takeWhile_eq_self_iff.mpr (accepts_of_notMem noQuery)]

/-- A request text is taken apart into its method and its path, and, when its target breaks no line,
into its fields. -/
theorem exposed_text {method target : Bytes} {fields : Headers}
    (methodFree : space ∉ method ∧ carriageReturn ∉ method) (distinct : Distinct fields)
    (safe : ∀ field ∈ fields, LineSafe field) :
    (exposed (requestLine method target ++ writeFields fields ++ crlf)).method = method ∧
      (exposed (requestLine method target ++ writeFields fields ++ crlf)).localUri =
        exposedPath target ∧
      (¬ crlf <:+: target →
        (exposed (requestLine method target ++ writeFields fields ++ crlf)).headers =
          fields.map fun field => (field.1, field.2.dropWhile (· == space))) := by
  have text : requestLine method target ++ writeFields fields ++ crlf =
      (method ++ space :: (target ++ ascii " HTTP/1.1")) ++ (crlf ++ (writeFields fields ++ crlf)) := by
    simp [requestLine]
  have unbroken {front : Bytes} (free : ¬ crlf <:+: front) : ¬ crlf <:+: method ++ space :: front := by
    rw [← List.singleton_append, ← List.append_assoc]
    exact fun occurs => free (infix_behind (by simpa using methodFree.2) occurs)
  have taken (front : Bytes) : ((method ++ space :: front).dropWhile (· != space)).drop 1 = front := by
    rw [dropWhile_ne_stop methodFree.1, List.drop_succ_cons, List.drop_zero]
  have named (front : Bytes) : (method ++ space :: front).takeWhile (· != space) = method :=
    takeWhile_ne_stop methodFree.1
  rw [text]
  rcases firstLine_cases target with ⟨whole, same⟩ | ⟨rest, broken, whole⟩
  · -- The request line ends behind the version.
    have version : ¬ crlf <:+: target ++ ascii " HTTP/1.1" :=
      not_infix_across (by decide) whole (by decide) (by decide +kernel : ¬ crlf <:+: ascii "HTTP/1.1")
    have line := firstLine_whole (method ++ space :: (target ++ ascii " HTTP/1.1"))
      (writeFields fields ++ crlf) (unbroken version)
    have ended : strstr crlf ((method ++ space :: (target ++ ascii " HTTP/1.1")) ++
        (crlf ++ (writeFields fields ++ crlf))) = some (crlf ++ (writeFields fields ++ crlf)) :=
      strstr_pair (by decide) _ (unbroken version)
    have parsed : receiveHeaders (writeFields fields ++ crlf) =
        fields.map fun field => (field.1, field.2.dropWhile (· == space)) := by
      have enough := length_writeFields fields
      have read := parseHeaders_writeFields fields [] (writeFields fields ++ crlf).length [] distinct
        safe (by simp [crlf]; omega)
      simpa [receiveHeaders] using read
    have cut : (target ++ ascii " HTTP/1.1").takeWhile (· != space) =
        target.takeWhile (· != space) := by
      show (target ++ space :: ascii "HTTP/1.1").takeWhile (· != space) = _
      rw [List.takeWhile_append]
      split
      · next all => rw [(List.takeWhile_prefix _).eq_of_length all]; simp
      · rfl
    refine ⟨?_, ?_, fun _ => ?_⟩
    · simp only [exposed, line, named]
    · simp only [exposed, line, taken, cut, exposedPath, same]
    · simp only [exposed, ended, List.drop_left]
      exact parsed
  · -- It ends inside the target.
    have split : (method ++ space :: (target ++ ascii " HTTP/1.1")) ++
        (crlf ++ (writeFields fields ++ crlf)) = (method ++ space :: firstLine target) ++
          (crlf ++ (rest ++ ascii " HTTP/1.1" ++ (crlf ++ (writeFields fields ++ crlf)))) := by
      conv_lhs => rw [broken]
      simp
    rw [split]
    have line := firstLine_whole (method ++ space :: firstLine target)
      (rest ++ ascii " HTTP/1.1" ++ (crlf ++ (writeFields fields ++ crlf))) (unbroken whole)
    refine ⟨?_, ?_, fun unbroken => ?_⟩
    · simp only [exposed, line, named]
    · simp only [exposed, line, taken, exposedPath]
    · exact absurd ⟨_, rest, by rw [List.append_assoc]; exact broken.symm⟩ unbroken

end Cookbook.Grid
