import Cookbook.Grid.Artifact
import Cookbook.Grid.Transport

/-!
# Signed requests are verified

The sender signs the path it was asked for, before the peer's path prefix is put in front of it and
with its query behind it; the receiver rebuilds the content from the path it exposes and from the
fields that arrive. Both contents are the same exactly when nothing changed on the way.
-/
namespace Cookbook.Grid

open Library.Text Library.Sql Library.Program Server

/-! ## Signing -/

/-- `extract_header_value` on a text: the value on the first line that starts with the name. -/
def extractFrom (name : Bytes) (size : Nat) : Nat → Bytes → Bytes
  | 0, _ => []
  | fuel + 1, p =>
    if p = [] then []
    else if name ++ [colon] <+: p then
      let p := (p.drop (name.length + 1)).dropWhile (· == space)
      snprintf size (p.take (p.length - ((strstr crlf p).map List.length).getD 0))
    else
      match strstr crlf p with
      | none => []
      | some nl => extractFrom name size fuel (nl.drop crlf.length)

/-- `extract_header_value` -/
def extractHeaderValue (headers : Option Bytes) (name : Bytes) (size : Nat) : Bytes :=
  match headers with
  | none => []
  | some headers => extractFrom name size headers.length headers

/-- The content that `grid_request_signed` signs. -/
def canonicalContent (config : Config) (method path : Bytes) (viaChain : Option Bytes)
    (hopCount : Int) (extraHeaders : Option Bytes) (timestamp : Int) : Bytes :=
  buildCanonical method path (viaHeader config.registryId viaChain) (hopCount + 1)
    (extractHeaderValue extraHeaders grantsHeaderName 2048)
    (extractHeaderValue extraHeaders excludeHeaderName 2048) timestamp

/-- The lines that a signature adds. -/
def signatureFields (registryId sig : Bytes) (timestamp : Int) : Headers :=
  [(originHeaderName, registryId), (signatureHeaderName, Auth.base64urlEncode sig 128),
    (timestampHeaderName, decimal timestamp)]

/-- `signed_headers`, null without a signature. -/
def signedHeaders (config : Config) (method path : Bytes) (viaChain : Option Bytes)
    (hopCount : Int) (extraHeaders : Option Bytes) (timestamp : Int) : Option Bytes :=
  if config.hasRegistryKey then
    (config.sign (canonicalContent config method path viaChain hopCount extraHeaders timestamp)).map
      fun sig =>
        let extra := extraHeaders.getD []
        snprintf (extra.length + 512)
          (extra ++ writeFields (signatureFields config.registryId sig timestamp))
  else none

/-- `grid_request_signed`, up to the text that is sent. -/
def gridRequestSigned (config : Config) (peerUrl method path : Bytes) (viaChain : Option Bytes)
    (hopCount : Int) (extraHeaders : Option Bytes) (timestamp : Int) : Outcome (Option Bytes) :=
  gridRequestEx peerUrl method path config.registryId viaChain hopCount
    ((signedHeaders config method path viaChain hopCount extraHeaders timestamp).or extraHeaders)

/-! ## The forwarded grants -/

/-- A writer's loop only appends. -/
theorem writeGrants_append (front p hdrs : Bytes) (fuel : Nat) (first : Bool) :
    writeGrants fuel p (front ++ hdrs) first = front ++ writeGrants fuel p hdrs first := by
  induction fuel generalizing p hdrs first with
  | zero => rfl
  | succ fuel ih =>
    have separated : separate (front ++ hdrs) first = front ++ separate hdrs first := by
      cases first <;> simp [separate]
    unfold writeGrants
    split
    · rfl
    · cases p.dropWhile isGap with
      | nil => rfl
      | cons c afterOpen =>
        simp only
        split
        · cases strchr quote afterOpen with
          | none => rfl
          | some kend =>
            simp only
            cases (kend.drop 1).dropWhile fun c => c == space || c == colon with
            | nil => rfl
            | cons c afterVal =>
              simp only
              split
              · cases strchr quote afterVal with
                | none => rfl
                | some vend =>
                  simp only [separated, List.append_assoc]
                  rw [ih]
              · rfl
        · rfl

/-- The exclude loop only appends. -/
theorem writeExcludes_append (front p hdrs : Bytes) (fuel : Nat) (first : Bool) :
    writeExcludes fuel p (front ++ hdrs) first = front ++ writeExcludes fuel p hdrs first := by
  induction fuel generalizing p hdrs first with
  | zero => rfl
  | succ fuel ih =>
    have separated : separate (front ++ hdrs) first = front ++ separate hdrs first := by
      cases first <;> simp [separate]
    unfold writeExcludes
    split
    · rfl
    · cases p.dropWhile isGap with
      | nil => rfl
      | cons c afterOpen =>
        simp only
        split
        · cases strchr quote afterOpen with
          | none => rfl
          | some kend =>
            simp only [separated, List.append_assoc]
            rw [ih]
        · rfl

/-- A writer that only appends does so behind the brace. -/
theorem behindBrace_append {write : Nat → Bytes → Bytes → Bool → Bytes}
    (appends : ∀ front p hdrs fuel first,
      write fuel p (front ++ hdrs) first = front ++ write fuel p hdrs first)
    (json front : Bytes) : behindBrace write json front = front ++ behindBrace write json [] := by
  unfold behindBrace
  cases strchr openBrace json with
  | none => simp
  | some p => simpa using appends front (p.drop 1) [] json.length true

/-- The fields that `build_grid_grant_headers` writes for these claims. -/
def grantFields (claims : Claims) : Headers :=
  if claims.version = 2 then
    (claims.grantsJson.toList.flatMap fun grants =>
      (grantsHeaderName, behindBrace writeGrants grants []) ::
        claims.excludeJson.toList.map fun exclude =>
          (excludeHeaderName, behindBrace writeExcludes exclude []))
  else []

/-- The headers that are built are these fields, and they are short. -/
theorem buildGridGrantHeaders_fields {claims : Claims} {extra : Option Bytes}
    (built : buildGridGrantHeaders claims = .done extra) :
    extra.getD [] = writeFields (grantFields claims) ∧
      (writeFields (grantFields claims)).length < 2048 := by
  unfold buildGridGrantHeaders at built
  unfold grantFields
  cases grants : claims.grantsJson with
  | none =>
    rw [grants] at built
    cases built
    simp [writeFields]
  | some grants =>
    simp only [grants] at built
    by_cases version : claims.version = 2
    · rw [if_neg (by simpa using version)] at built
      rw [if_pos version]
      cases exclude : claims.excludeJson with
      | none =>
        simp only [exclude, fitted] at built
        split at built
        · next fits =>
          cases built
          rw [behindBrace_append writeGrants_append] at fits ⊢
          simp only [headerCap] at fits
          simpa [writeFields, headerLine] using fits
        · cases built
      | some exclude =>
        simp only [exclude, fitted] at built
        split at built
        · next fits =>
          cases built
          rw [behindBrace_append writeExcludes_append, behindBrace_append writeGrants_append]
            at fits ⊢
          simp only [headerCap] at fits
          simpa [writeFields, headerLine] using fits
        · cases built
    · rw [if_pos (by simpa using version)] at built
      cases built
      simp [writeFields, version]

/-- The value of a claim's field as it is read: without the blanks in front. -/
def strip (value : Bytes) : Bytes := value.dropWhile (· == space)

/-- A stripped text is stripped, and so is what is left of it when it is cut. -/
theorem strip_take (value : Bytes) (size : Nat) :
    strip ((strip value).take size) = (strip value).take size := by
  unfold strip
  cases shape : value.dropWhile (· == space) with
  | nil => simp
  | cons c rest =>
    have kept : (c == space) = false := by
      have := List.head?_dropWhile_not (· == space) value
      rw [shape] at this
      simpa using this
    cases size with
    | zero => simp
    | succ size => simp [List.take_succ_cons, kept]

/-- A text is stripped in front of a character that is no blank. -/
theorem strip_append (value rest : Bytes) (start : rest.head? ≠ some space) :
    strip (value ++ rest) = strip value ++ rest := by
  unfold strip
  induction value with
  | nil =>
    cases rest with
    | nil => rfl
    | cons c rest => simpa using start
  | cons c value ih =>
    cases blank : c == space with
    | true => simp only [List.cons_append, List.dropWhile_cons, blank, if_true, ih]
    | false => simp [blank]

/-- The value on the line of its name. -/
theorem extractFrom_here (name value rest : Bytes) (size fuel : Nat)
    (valueFree : ¬ crlf <:+: value) :
    extractFrom name size (fuel + 1) (headerLine name value ++ rest) =
      snprintf size (strip value) := by
  have shape : headerLine name value ++ rest =
      (name ++ [colon]) ++ (space :: (value ++ (crlf ++ rest))) := by
    simp [headerLine, ascii]
  have nonempty : headerLine name value ++ rest ≠ [] := by simp [shape]
  have here : name ++ [colon] <+: headerLine name value ++ rest := ⟨_, shape.symm⟩
  have behind : (headerLine name value ++ rest).drop (name.length + 1) =
      space :: (value ++ (crlf ++ rest)) := by
    rw [shape, show name.length + 1 = (name ++ [colon]).length by simp, List.drop_left]
  have stripped : (space :: (value ++ (crlf ++ rest))).dropWhile (· == space) =
      strip value ++ (crlf ++ rest) := by
    rw [← strip_append value (crlf ++ rest) (by simp [crlf])]
    simp [strip]
  have strippedFree : ¬ crlf <:+: strip value := fun occurs =>
    valueFree (occurs.trans (List.dropWhile_suffix _).isInfix)
  have ended : strstr crlf (strip value ++ (crlf ++ rest)) = some (crlf ++ rest) :=
    strstr_pair (by decide) rest strippedFree
  simp only [extractFrom, if_neg nonempty, if_pos here, behind, stripped, ended, Option.map_some,
    Option.getD_some]
  rw [List.length_append, Nat.add_sub_cancel, List.take_left]

/-- A line of another name is passed over. -/
theorem extractFrom_next {name : Bytes} (other value rest : Bytes) (size fuel : Nat)
    (otherFree : carriageReturn ∉ other) (valueFree : ¬ crlf <:+: value)
    (differs : ¬ name ++ [colon] <+: headerLine other value ++ rest) :
    extractFrom name size (fuel + 1) (headerLine other value ++ rest) =
      extractFrom name size fuel rest := by
  have found := strstr_line rest otherFree valueFree
  have nonempty : headerLine other value ++ rest ≠ [] := by simp [headerLine, ascii]
  simp only [extractFrom, if_neg nonempty, if_neg differs, found, List.drop_left]

/-! ## The fields of a request -/

/-- The names of the fields that a request can have, in their order. -/
def gridNames : List Bytes :=
  [hostHeaderName, viaHeaderName, hopCountHeaderName, grantsHeaderName, excludeHeaderName,
    originHeaderName, signatureHeaderName, timestampHeaderName, userAgentHeaderName,
    connectionHeaderName]

/-- A value behind the transport: over TLS it went through a buffer. -/
def carried (useTls : Bool) (value : Bytes) : Bytes :=
  if useTls then snprintf 512 (strip value) else value

/-- The fields behind the others. -/
def tailFields (useTls : Bool) : Headers :=
  if useTls then
    [(userAgentHeaderName, ascii "apennines/1.0"), (connectionHeaderName, ascii "close")]
  else [(connectionHeaderName, ascii "close")]

/-- The fields of a request on the wire. -/
def wireFields (useTls : Bool) (host via : Bytes) (hopCount : Int) (extras : Headers) : Headers :=
  [(hostHeaderName, host), (viaHeaderName, via), (hopCountHeaderName, decimal (hopCount + 1))] ++
    (extras.map fun field => (field.1, carried useTls field.2)) ++ tailFields useTls

/-- The names differ. -/
theorem gridNames_distinct : gridNames.Pairwise fun left right => sameName left right = false := by
  simp only [gridNames, hostHeaderName, viaHeaderName, hopCountHeaderName, grantsHeaderName,
    excludeHeaderName, originHeaderName, signatureHeaderName, timestampHeaderName,
    userAgentHeaderName, connectionHeaderName, ascii_ofList]
  decide

/-- The names can be read back. -/
theorem gridNames_plain : ∀ name ∈ gridNames, name ≠ [] ∧ colon ∉ name ∧ carriageReturn ∉ name := by
  simp only [gridNames, hostHeaderName, viaHeaderName, hopCountHeaderName, grantsHeaderName,
    excludeHeaderName, originHeaderName, signatureHeaderName, timestampHeaderName,
    userAgentHeaderName, connectionHeaderName, ascii_ofList]
  decide

/-- Fields with these names differ. -/
theorem distinct_of_names {fields : Headers} (names : (fields.map Prod.fst).Sublist gridNames) :
    Distinct fields := List.pairwise_map.mp (gridNames_distinct.sublist names)

/-- Fields with these names have lines that can be read back. -/
theorem lineSafe_of_names {fields : Headers} (names : (fields.map Prod.fst).Sublist gridNames)
    (values : ∀ field ∈ fields, ¬ crlf <:+: field.2) : ∀ field ∈ fields, LineSafe field := by
  intro field member
  have plain := gridNames_plain field.1 (names.mem (List.mem_map_of_mem member))
  exact ⟨plain.1, plain.2, values field member⟩

/-- The forwarded fields are none, the grants, or the grants and the exclusions. -/
theorem grantFields_cases (claims : Claims) :
    grantFields claims = [] ∨ (∃ grants, grantFields claims = [(grantsHeaderName, grants)]) ∨
      ∃ grants exclude, grantFields claims =
        [(grantsHeaderName, grants), (excludeHeaderName, exclude)] := by
  unfold grantFields
  cases claims.grantsJson with
  | none => simp
  | some grants =>
    by_cases version : claims.version = 2
    · cases claims.excludeJson with
      | none => exact .inr (.inl ⟨behindBrace writeGrants grants [], by simp [version]⟩)
      | some exclude =>
        exact .inr (.inr ⟨behindBrace writeGrants grants [], behindBrace writeExcludes exclude [],
          by simp [version]⟩)
    · simp [version]

/-- The names on the wire. -/
theorem wireFields_names (useTls : Bool) (host via : Bytes) (hopCount timestamp : Int)
    (claims : Claims) (registryId sig : Bytes) :
    ((wireFields useTls host via hopCount
      (grantFields claims ++ signatureFields registryId sig timestamp)).map Prod.fst).Sublist
      gridNames := by
  have forwarded : ((grantFields claims).map Prod.fst).Sublist
      [grantsHeaderName, excludeHeaderName] := by
    rcases grantFields_cases claims with shape | ⟨grants, shape⟩ | ⟨grants, exclude, shape⟩
    · rw [shape]
      exact List.nil_sublist _
    · rw [shape]
      exact .cons_cons _ (List.nil_sublist _)
    · rw [shape]
      exact .refl _
  have behind : ((tailFields useTls).map Prod.fst).Sublist
      [userAgentHeaderName, connectionHeaderName] := by
    cases useTls with
    | true => exact .refl _
    | false => exact .cons _ (.refl _)
  have whole := (List.Sublist.refl [hostHeaderName, viaHeaderName, hopCountHeaderName]).append
    (forwarded.append ((List.Sublist.refl [originHeaderName, signatureHeaderName,
      timestampHeaderName]).append behind))
  simpa [wireFields, signatureFields, gridNames, Function.comp_def] using whole

/-! ## The request that is sent -/

/-- A request that one registry makes to another. -/
structure PeerRequest where
  /-- The registry that makes it. -/
  config : Config
  /-- `peer->url` -/
  peerUrl : Bytes
  /-- `method` -/
  method : Bytes
  /-- `path` -/
  path : Bytes
  /-- `via_chain` -/
  viaChain : Option Bytes
  /-- `hop_count` -/
  hopCount : Int
  /-- The claims of the caller's token. -/
  claims : Claims
  /-- `extra_headers` -/
  extraHeaders : Option Bytes
  /-- `timestamp` -/
  timestamp : Int

namespace PeerRequest

/-- The chain that is sent. -/
def via (request : PeerRequest) : Bytes := viaHeader request.config.registryId request.viaChain

/-- The content that is signed. -/
def content (request : PeerRequest) : Bytes :=
  canonicalContent request.config request.method request.path request.viaChain request.hopCount
    request.extraHeaders request.timestamp

/-- The text that is sent. -/
def sent (request : PeerRequest) : Outcome (Option Bytes) :=
  gridRequestSigned request.config request.peerUrl request.method request.path request.viaChain
    request.hopCount request.extraHeaders request.timestamp

/-- The request target that the peer's server finds in the request line. -/
def target (peer : PeerUrl) (path : Bytes) : Bytes :=
  if peer.useTls then
    serializedTarget (((httpUrlParse (fullUrl peer path)).map HttpUrl.target).getD [])
  else peer.pathPrefix ++ path

/-- The fields that a signed request has besides those of the transport. -/
def extras (request : PeerRequest) (sig : Bytes) : Headers :=
  grantFields request.claims ++
    signatureFields request.config.registryId sig request.timestamp

/-- A request is made as the handlers make it, to this peer, and it is signed: its base URL has no
blanks, its values no line breaks, and the registry's name is one that a peer can have. Its path is
any text: the handlers build it from what a client's URL decodes to. -/
structure Made (request : PeerRequest) (peer : PeerUrl) (sig : Bytes) : Prop where
  /-- The URL is the peer's. -/
  url : parsePeerUrl request.peerUrl = some peer
  /-- The two methods. -/
  method : request.method = ascii "GET" ∨ request.method = ascii "HEAD"
  /-- All requests go to the grid's own paths. -/
  path : ascii "/grid/" <+: request.path
  /-- A base URL has neither blanks nor control characters. -/
  visible : ∀ c ∈ request.peerUrl, space < c
  /-- The extra headers are those of the claims. -/
  headers : buildGridGrantHeaders request.claims = .done request.extraHeaders
  /-- Every value ends with its line. -/
  lines : ∀ field ∈ grantFields request.claims, ¬ crlf <:+: field.2
  /-- So does the name. -/
  name : ¬ crlf <:+: request.config.registryId
  /-- A peer is added with a name from a buffer of 128 bytes. -/
  short : request.config.registryId.length < 128
  /-- So does the chain. -/
  chain : ∀ chain ∈ request.viaChain, ¬ crlf <:+: chain
  /-- The hops are counted without overflow. -/
  hops : 0 ≤ request.hopCount ∧ request.hopCount < 2147483647
  /-- The clock is a number of seconds. -/
  clock : 0 ≤ request.timestamp ∧ request.timestamp < 9223372036854775808
  /-- There is a registry key. -/
  key : request.config.hasRegistryKey = true
  /-- It signs the content. -/
  signed : request.config.sign request.content = some sig
  /-- A signature has 64 bytes. -/
  size : sig.length = 64

variable {request : PeerRequest} {peer : PeerUrl} {sig : Bytes}

/-- The value of a field that is forwarded, as it is signed. -/
def forwarded (request : PeerRequest) (name : Bytes) : Bytes :=
  strip ((findHeader (grantFields request.claims) name).getD [])

/-- The line of the grants is not the line of the exclusions. -/
theorem exclude_differs (value rest : Bytes) :
    ¬ excludeHeaderName ++ [colon] <+: headerLine grantsHeaderName value ++ rest := by
  intro front
  have grants : grantsHeaderName <+: headerLine grantsHeaderName value ++ rest := by
    simp only [headerLine, List.append_assoc]
    exact List.prefix_append _ _
  simp only [grantsHeaderName, excludeHeaderName, ascii_ofList] at grants front
  have inside := List.prefix_of_prefix_length_le grants front (by decide)
  revert inside
  decide

/-- Behind the last line nothing is found. -/
theorem extractFrom_nil (name : Bytes) (size fuel : Nat) : extractFrom name size fuel [] = [] := by
  cases fuel <;> simp [extractFrom]

/-- A value is shorter than its line. -/
theorem strip_short {name value rest : Bytes}
    (short : (headerLine name value ++ rest).length < 2048) :
    snprintf 2048 (strip value) = strip value := by
  refine snprintf_fits ?_
  have shrinks := (List.dropWhile_sublist (l := value) (· == space)).length_le
  simp only [headerLine, List.length_append] at short
  unfold strip
  omega

/-- The signer reads the forwarded values back from the extra headers. -/
theorem Made.extracted (made : request.Made peer sig) {name : Bytes}
    (known : name = grantsHeaderName ∨ name = excludeHeaderName) :
    extractHeaderValue request.extraHeaders name 2048 = request.forwarded name := by
  obtain ⟨text, short⟩ := buildGridGrantHeaders_fields made.headers
  have lines := made.lines
  have grantsFree : carriageReturn ∉ grantsHeaderName := by
    rw [grantsHeaderName, ascii_ofList]
    decide
  have apart : sameName grantsHeaderName excludeHeaderName = false := by
    simp only [grantsHeaderName, excludeHeaderName, ascii_ofList]
    decide
  have self (name : Bytes) : sameName name name = true := by simp [sameName]
  have read : extractHeaderValue request.extraHeaders name 2048 =
      extractFrom name 2048 (writeFields (grantFields request.claims)).length
        (writeFields (grantFields request.claims)) := by
    rw [← text]
    cases request.extraHeaders with
    | none => exact (extractFrom_nil name 2048 0).symm
    | some text => rfl
  rw [read]
  unfold forwarded
  rcases grantFields_cases request.claims with shape | ⟨grants, shape⟩ | ⟨grants, exclude, shape⟩
  · rw [shape]
    rfl
  · rw [shape] at short lines ⊢
    have grantsLine := lines _ (by simp : (grantsHeaderName, grants) ∈ _)
    have one : writeFields [(grantsHeaderName, grants)] =
        headerLine grantsHeaderName grants ++ [] := by simp [writeFields]
    rw [one] at short ⊢
    obtain ⟨fuel, enough⟩ : ∃ fuel, (headerLine grantsHeaderName grants ++ []).length = fuel + 1 :=
      ⟨_, (Nat.sub_add_cancel (by simp [headerLine, ascii]; omega)).symm⟩
    rw [enough]
    rcases known with rfl | rfl
    · rw [extractFrom_here _ _ _ _ _ grantsLine, strip_short short]
      simp [findHeader, self]
    · rw [extractFrom_next _ _ _ _ _ grantsFree grantsLine (exclude_differs _ _), extractFrom_nil]
      simp [findHeader, apart, strip]
  · rw [shape] at short lines ⊢
    have grantsLine := lines _ (by simp : (grantsHeaderName, grants) ∈ _)
    have excludeLine := lines (excludeHeaderName, exclude) (by simp)
    have two : writeFields [(grantsHeaderName, grants), (excludeHeaderName, exclude)] =
        headerLine grantsHeaderName grants ++ (headerLine excludeHeaderName exclude ++ []) := by
      simp [writeFields]
    rw [two] at short ⊢
    obtain ⟨fuel, enough⟩ : ∃ fuel, (headerLine grantsHeaderName grants ++
        (headerLine excludeHeaderName exclude ++ [])).length = fuel + 2 :=
      ⟨_, (Nat.sub_add_cancel (by simp [headerLine, ascii]; omega)).symm⟩
    rw [enough]
    rcases known with rfl | rfl
    · rw [extractFrom_here _ _ _ _ _ grantsLine, strip_short short]
      simp [findHeader, self]
    · have behind : (headerLine excludeHeaderName exclude ++ []).length < 2048 := by
        rw [List.length_append] at short
        omega
      rw [extractFrom_next _ _ _ _ _ grantsFree grantsLine (exclude_differs _ _),
        extractFrom_here _ _ _ _ _ excludeLine, strip_short behind]
      simp [findHeader, self, apart]

/-- The numerals of a request hold neither blanks nor line breaks. -/
theorem decimal_chars {number : Int} (low : 0 ≤ number) :
    carriageReturn ∉ decimal number ∧ strip (decimal number) = decimal number := by
  obtain ⟨number, rfl⟩ := Int.eq_ofNat_of_zero_le low
  have digits := (decimalNat_spec number).2.1
  constructor
  · exact fun member => absurd (digits _ member).1 (by decide)
  · show (decimalNat number).dropWhile (· == space) = decimalNat number
    rw [List.dropWhile_eq_self_iff]
    intro nonempty blank
    have first := (digits _ (List.getElem_mem nonempty)).1
    rw [beq_iff_eq.mp blank] at first
    exact absurd first (by decide)

/-- An encoded signature is short and holds neither blanks nor line breaks. -/
theorem encoded_chars (size : sig.length = 64) :
    (Auth.base64urlEncode sig 128).length ≤ 88 ∧
      carriageReturn ∉ Auth.base64urlEncode sig 128 ∧
      strip (Auth.base64urlEncode sig 128) = Auth.base64urlEncode sig 128 := by
  have alphabet : ∀ value < 64, Auth.b64urlChar value ≠ carriageReturn ∧
      Auth.b64urlChar value ≠ space := by decide +kernel
  obtain ⟨coded, encoded, -⟩ := Auth.base64urlEncodeFrom_spec 128 0 sig (by omega)
  obtain ⟨short, chars⟩ := Auth.base64urlEncodeFrom_chars encoded
  have text : Auth.base64urlEncode sig 128 = coded := by simp [Auth.base64urlEncode, encoded]
  rw [text]
  refine ⟨by omega, fun member => ?_, ?_⟩
  · obtain ⟨value, small, same⟩ := chars _ member
    exact (alphabet value small).1 same.symm
  · unfold strip
    rw [List.dropWhile_eq_self_iff]
    intro nonempty blank
    obtain ⟨value, small, same⟩ := chars _ (List.getElem_mem nonempty)
    exact (alphabet value small).2 (same.symm.trans (beq_iff_eq.mp blank))

/-- The lines that are sent behind those of the transport. -/
theorem Made.signedHeaders (made : request.Made peer sig) :
    signedHeaders request.config request.method request.path request.viaChain request.hopCount
      request.extraHeaders request.timestamp = some (writeFields (request.extras sig)) := by
  have text := (buildGridGrantHeaders_fields made.headers).1
  have encoded := (encoded_chars made.size).1
  have digits := decimal_length made.clock.1 made.clock.2
  have named := made.short
  have lines : (writeFields (signatureFields request.config.registryId sig
      request.timestamp)).length < 512 := by
    simp only [writeFields, signatureFields, List.flatMap_cons, List.flatMap_nil, headerLine,
      List.length_append, List.length_nil]
    have origin : originHeaderName.length = 22 := by rw [originHeaderName, ascii_ofList]; rfl
    have signature : signatureHeaderName.length = 25 := by
      rw [signatureHeaderName, ascii_ofList]; rfl
    have timestamp : timestampHeaderName.length = 20 := by
      rw [timestampHeaderName, ascii_ofList]; rfl
    have separator : (ascii ": ").length = 2 := by rw [ascii_ofList]; rfl
    have ended : crlf.length = 2 := rfl
    omega
  have signed : request.config.sign (canonicalContent request.config request.method request.path
      request.viaChain request.hopCount request.extraHeaders request.timestamp) = some sig :=
    made.signed
  unfold Grid.signedHeaders
  rw [if_pos made.key, signed, Option.map_some, text, snprintf_fits]
  · simp [extras, writeFields]
  · rw [List.length_append]
    omega

/-- The text on the wire, for this host. -/
def wireText (request : PeerRequest) (peer : PeerUrl) (sig host : Bytes) : Bytes :=
  requestLine request.method (target peer request.path) ++
    writeFields (wireFields peer.useTls host request.via request.hopCount (request.extras sig)) ++
    crlf

/-- Over plain TCP the text fits its buffer. -/
def Fits (request : PeerRequest) (peer : PeerUrl) (sig : Bytes) : Prop :=
  peer.useTls = false →
    (request.wireText peer sig (peer.host ++ colon :: peer.port)).length < 8192

/-- The values of the extra fields end with their lines. -/
theorem Made.extras_free (made : request.Made peer sig) :
    ∀ field ∈ request.extras sig, ¬ crlf <:+: field.2 := by
  intro field member
  rcases List.mem_append.mp member with grants | signature
  · exact made.lines field grants
  · simp only [signatureFields, List.mem_cons, List.not_mem_nil, or_false] at signature
    rcases signature with rfl | rfl | rfl
    · exact made.name
    · exact unbroken_of_free (encoded_chars made.size).2.1
    · exact unbroken_of_free (decimal_chars made.clock.1).1

/-- Over plain TCP the text is sent whole, if it fits. -/
theorem Made.sent_plain (made : request.Made peer sig) (plain : peer.useTls = false) :
    request.sent =
      if (request.wireText peer sig (peer.host ++ colon :: peer.port)).length < 8192 then
        .done (some (request.wireText peer sig (peer.host ++ colon :: peer.port)))
      else .overrun := by
  have text : requestText peer request.method request.path
      (viaHeader request.config.registryId request.viaChain) request.hopCount
      (writeFields (request.extras sig)) =
      request.wireText peer sig (peer.host ++ colon :: peer.port) := by
    have same : (request.extras sig).map (fun field => (field.1, carried false field.2)) =
        request.extras sig := by simp [carried]
    simp only [requestText, wireText, target, plain, Bool.false_eq_true, if_false, wireFields, same,
      tailFields, via]
    simp [writeFields]
  unfold sent gridRequestSigned gridRequestEx
  rw [made.signedHeaders]
  simp only [made.url, plain, Bool.false_eq_true, if_false, Option.some_or, Option.getD_some, text,
    fitted]
  split <;> rfl

/-- Over TLS the text is sent to the host of the URL. -/
theorem Made.sent_tls (made : request.Made peer sig) (tls : peer.useTls = true) :
    request.sent = .done ((httpUrlParse (fullUrl peer request.path)).bind fun parsed =>
      parsed.host.map fun host => request.wireText peer sig host) := by
  have method : httpMethod request.method = request.method := by
    rcases made.method with get | head
    · rw [get]; decide +kernel
    · rw [head]; decide +kernel
  have apart : sameName viaHeaderName hopCountHeaderName = false := by
    simp only [viaHeaderName, hopCountHeaderName, ascii_ofList]
    decide
  have defaults : setHeader (setHeader [] viaHeaderName request.via) hopCountHeaderName
      (decimal (request.hopCount + 1)) = [(viaHeaderName, request.via),
        (hopCountHeaderName, decimal (request.hopCount + 1))] := by
    simp [setHeader, apart]
  have distinct (host : Bytes) : Distinct ((hostHeaderName, host) ::
      (([(viaHeaderName, request.via), (hopCountHeaderName, decimal (request.hopCount + 1))] ++
        (request.extras sig).map fun field => (field.1, carried true field.2)) ++
        tailFields true)) :=
    distinct_of_names (wireFields_names true host request.via request.hopCount request.timestamp
      request.claims request.config.registryId sig)
  have fresh : Distinct ([(viaHeaderName, request.via),
      (hopCountHeaderName, decimal (request.hopCount + 1))] ++ request.extras sig) := by
    have inner := (List.pairwise_append.mp (List.pairwise_cons.mp (distinct [])).2).1
    unfold Distinct at inner ⊢
    rw [← List.pairwise_map (f := Prod.fst) (R := fun left right => sameName left right = false)]
      at inner ⊢
    simpa [Function.comp_def] using inner
  have safe : ∀ field ∈ request.extras sig, LineSafe field := by
    refine lineSafe_of_names ?_ made.extras_free
    have names := wireFields_names false [] [] 0 request.timestamp request.claims
      request.config.registryId sig
    refine List.Sublist.trans ?_ names
    simp only [wireFields, extras, List.map_append, List.map_map]
    exact (List.sublist_append_right _ _).trans (List.sublist_append_left _ _)
  have enough : (request.extras sig).length ≤ (writeFields (request.extras sig)).length :=
    length_writeFields _
  have cut : ((request.extras sig).map fun field =>
      (field.1, snprintf 512 (field.2.dropWhile (· == space)))) =
      (request.extras sig).map fun field => (field.1, carried true field.2) := rfl
  unfold sent gridRequestSigned gridRequestEx
  rw [made.signedHeaders]
  simp only [made.url, tls, if_true, Option.some_or, Option.getD_some]
  rw [show viaHeader request.config.registryId request.viaChain = request.via from rfl, defaults,
    setExtraHeaders_writeFields _ _ _ fresh safe enough, cut, method]
  unfold httpsClientRequest
  cases parsed : httpUrlParse (fullUrl peer request.path) with
  | none => rfl
  | some parsed' =>
    simp only [Option.bind_some]
    congr 2
    funext host
    rw [clientFields_eq host _ (distinct host)]
    simp only [wireText, target, tls, if_true, parsed, Option.map_some, Option.getD_some]
    rfl

/-! ## The request that arrives -/

/-- A value that arrives: stripped, and over TLS cut. -/
theorem strip_carried (useTls : Bool) (value : Bytes) :
    strip (carried useTls value) = if useTls then (strip value).take 511 else strip value := by
  cases useTls with
  | true => exact strip_take value 511
  | false => rfl

/-- The fields of a signed request are found by their names. -/
theorem wireFields_find (request : PeerRequest) (useTls : Bool) (host sig : Bytes) :
    let fields := wireFields useTls host request.via request.hopCount (request.extras sig)
    findHeader fields viaHeaderName = some request.via ∧
      findHeader fields hopCountHeaderName = some (decimal (request.hopCount + 1)) ∧
      (∀ name, name = grantsHeaderName ∨ name = excludeHeaderName → findHeader fields name =
        (findHeader (grantFields request.claims) name).map (carried useTls)) ∧
      findHeader fields originHeaderName = some (carried useTls request.config.registryId) ∧
      findHeader fields signatureHeaderName =
        some (carried useTls (Auth.base64urlEncode sig 128)) ∧
      findHeader fields timestampHeaderName = some (carried useTls (decimal request.timestamp)) := by
  intro fields
  have distinct : Distinct fields := distinct_of_names (wireFields_names useTls host request.via
    request.hopCount request.timestamp request.claims request.config.registryId sig)
  have extra (field : Bytes × Bytes) (member : field ∈ request.extras sig) :
      (field.1, carried useTls field.2) ∈ fields := by
    refine List.mem_append_left _ (List.mem_append_right _ ?_)
    exact List.mem_map_of_mem member
  have added {field : Bytes × Bytes} (member : field ∈ signatureFields request.config.registryId
      sig request.timestamp) : field ∈ request.extras sig := List.mem_append_right _ member
  have others : ∀ name ∈ [grantsHeaderName, excludeHeaderName], ∀ other ∈ [hostHeaderName,
      viaHeaderName, hopCountHeaderName, originHeaderName, signatureHeaderName,
      timestampHeaderName, userAgentHeaderName, connectionHeaderName],
      sameName other name = false := by
    simp only [hostHeaderName, viaHeaderName, hopCountHeaderName, grantsHeaderName,
      excludeHeaderName, originHeaderName, signatureHeaderName, timestampHeaderName,
      userAgentHeaderName, connectionHeaderName, ascii_ofList]
    decide
  refine ⟨findHeader_of_mem distinct (by simp [fields, wireFields]),
    findHeader_of_mem distinct (by simp [fields, wireFields]), fun name known => ?_,
    findHeader_of_mem distinct (extra _ (added (.head _))),
    findHeader_of_mem distinct (extra _ (added (.tail _ (.head _)))),
    findHeader_of_mem distinct (extra _ (added (.tail _ (.tail _ (.head _)))))⟩
  have apart := others name (by rcases known with rfl | rfl <;> simp)
  have front : findHeader [(hostHeaderName, host), (viaHeaderName, request.via),
      (hopCountHeaderName, decimal (request.hopCount + 1))] name = none :=
    findHeader_absent (by simp [apart])
  have signature : findHeader (signatureFields request.config.registryId sig request.timestamp)
      name = none := findHeader_absent (by simp [signatureFields, apart])
  have behind : findHeader (tailFields useTls) name = none :=
    findHeader_absent (by cases useTls <;> simp [tailFields, apart])
  show findHeader (wireFields useTls host request.via request.hopCount (request.extras sig)) name = _
  unfold wireFields
  rw [findHeader_append, findHeader_append, front, behind, findHeader_map]
  unfold extras
  rw [findHeader_append, signature]
  simp

/-- The parts of the URL hold neither blanks nor control characters. -/
theorem Made.parts_visible (made : request.Made peer sig) :
    ∀ c ∈ peer.host ++ peer.port ++ peer.pathPrefix, space < c := by
  have ports : ∀ c ∈ ascii "443" ++ ascii "80", space < c := by
    simp only [ascii_ofList]
    decide +kernel
  intro c member
  rcases parsePeerUrl_chars made.url c member with url | secure | plain
  · exact made.visible c url
  · exact ports c (List.mem_append_left _ secure)
  · exact ports c (List.mem_append_right _ plain)

/-- The URL of a request over TLS behind its scheme. -/
theorem fullUrl_scheme (peer : PeerUrl) (path : Bytes) :
    fullUrl peer path = ascii "https" ++ (ascii "://" ++ (peer.host ++ colon :: peer.port ++
      (peer.pathPrefix ++ path)).take 4087) := by
  have scheme : (ascii "https").length = 5 ∧ (ascii "://").length = 3 := by
    simp only [ascii_ofList]
    decide +kernel
  have whole : ascii "https://" = ascii "https" ++ ascii "://" := by
    simp only [ascii_ofList]
    decide +kernel
  unfold fullUrl snprintf
  rw [whole]
  simp only [List.append_assoc]
  rw [List.take_append, List.take_of_length_le (by omega), scheme.1, List.take_append,
    List.take_of_length_le (by omega), scheme.2]

/-- The host of such a URL has no line break. -/
theorem Made.host_free (made : request.Made peer sig) {parsed : HttpUrl} {host : Bytes}
    (found : httpUrlParse (fullUrl peer request.path) = some parsed)
    (named : parsed.host = some host) : carriageReturn ∉ host := by
  have scheme : colon ∉ ascii "https" := by
    rw [ascii_ofList]
    decide
  have authority : ∀ c ∈ peer.host ++ colon :: peer.port, space < c := by
    intro c member
    by_cases mark : c = colon
    · rw [mark]
      decide
    · exact made.parts_visible c (List.mem_append_left _ (by simpa [mark] using member))
  obtain ⟨-, prefixed, -⟩ := parsePeerUrl_shape made.url
  obtain ⟨rest, rooted⟩ : ∃ rest, peer.pathPrefix ++ request.path = slash :: rest := by
    rcases prefixed with none | ⟨rest, some'⟩
    · obtain ⟨rest, whole⟩ := made.path
      exact ⟨_, by rw [none, ← whole]; rfl⟩
    · exact ⟨rest ++ request.path, by rw [some']; rfl⟩
  rw [fullUrl_scheme, rooted] at found
  intro member
  rcases httpUrlParse_host (@strstr_first UInt8 _ _ [slash, slash] _ _ scheme) found named _ member with
    inside | bracket
  · -- The authority ends in front of the first slash.
    have front := takeWhile_cut 4087 (by decide) |>.subset inside
    exact absurd (authority _ front) (by decide)
  · exact absurd bracket (by decide)

/-- A value that is forwarded, as it arrives. -/
def arrived (request : PeerRequest) (peer : PeerUrl) (name : Bytes) : Bytes :=
  if peer.useTls then (request.forwarded name).take 511 else request.forwarded name

/-- The values of the fields on the wire end with their lines. -/
theorem Made.wire_free (made : request.Made peer sig) {host : Bytes}
    (hostFree : carriageReturn ∉ host) :
    ∀ field ∈ wireFields peer.useTls host request.via request.hopCount (request.extras sig),
      ¬ crlf <:+: field.2 := by
  have via : ¬ crlf <:+: request.via := by
    intro occurs
    have inside := occurs.trans (List.take_prefix _ _).isInfix
    cases chain : request.viaChain with
    | none =>
      rw [chain] at inside
      exact made.name inside
    | some names =>
      simp only [chain] at inside
      split at inside
      · exact made.name inside
      · exact not_infix_across (by decide) (made.chain names (by simp [chain])) (by decide) made.name
          inside
  have kept (value : Bytes) (free : ¬ crlf <:+: value) : ¬ crlf <:+: carried peer.useTls value := by
    unfold carried
    split
    · exact fun occurs => free ((occurs.trans (List.take_prefix _ _).isInfix).trans
        (List.dropWhile_suffix _).isInfix)
    · exact free
  have literals : ¬ crlf <:+: ascii "apennines/1.0" ∧ ¬ crlf <:+: ascii "close" := by
    simp only [ascii_ofList]
    decide
  intro field member
  simp only [wireFields, List.mem_append, List.mem_cons, List.not_mem_nil, or_false] at member
  rcases member with ((rfl | rfl | rfl) | extra) | behind
  · exact unbroken_of_free hostFree
  · exact via
  · exact unbroken_of_free (decimal_chars (by have := made.hops.1; omega)).1
  · obtain ⟨source, inside, rfl⟩ := List.mem_map.mp extra
    exact kept _ (made.extras_free source inside)
  · unfold tailFields at behind
    split at behind
    · simp only [List.mem_cons, List.not_mem_nil, or_false] at behind
      rcases behind with rfl | rfl
      · exact literals.1
      · exact literals.2
    · simp only [List.mem_cons, List.not_mem_nil, or_false] at behind
      rw [behind]
      exact literals.2

/-- The fields as they were sent, without the blanks in front of their values. -/
def sentFields (request : PeerRequest) (peer : PeerUrl) (sig host : Bytes) : Headers :=
  (wireFields peer.useTls host request.via request.hopCount (request.extras sig)).map fun field =>
    (field.1, strip field.2)

/-- The method and the path of a request that arrives, and its fields when its path breaks no line. -/
theorem Made.exposed (made : request.Made peer sig) {host : Bytes}
    (hostFree : carriageReturn ∉ host) :
    (exposed (request.wireText peer sig host)).method = request.method ∧
      (exposed (request.wireText peer sig host)).localUri = exposedPath (target peer request.path) ∧
      (¬ crlf <:+: target peer request.path →
        (exposed (request.wireText peer sig host)).headers = request.sentFields peer sig host) := by
  have names := wireFields_names peer.useTls host request.via request.hopCount request.timestamp
    request.claims request.config.registryId sig
  have methodFree : space ∉ request.method ∧ carriageReturn ∉ request.method := by
    rcases made.method with get | head
    · rw [get]; decide +kernel
    · rw [head]; decide +kernel
  exact exposed_text methodFree (distinct_of_names names)
    (lineSafe_of_names names (made.wire_free hostFree))

/-- What the receiver finds in a request whose fields arrive as they were sent. -/
theorem Made.received (made : request.Made peer sig) {host : Bytes}
    (hostFree : carriageReturn ∉ host)
    (asSent : (Grid.exposed (request.wireText peer sig host)).headers =
      request.sentFields peer sig host) :
    signatureHeaders (Grid.exposed (request.wireText peer sig host)).headers =
        some (strip request.config.registryId, Auth.base64urlEncode sig 128,
          decimal request.timestamp) ∧
      signedContent (Grid.exposed (request.wireText peer sig host)) request.timestamp =
        buildCanonical request.method (exposedPath (target peer request.path)) (strip request.via)
          (request.hopCount + 1) (request.arrived peer grantsHeaderName)
          (request.arrived peer excludeHeaderName) request.timestamp := by
  obtain ⟨method, uri, -⟩ := made.exposed hostFree
  obtain ⟨via, hop, forwarded', origin, signature, timestamp⟩ :=
    wireFields_find request peer.useTls host sig
  have found (name : Bytes) : findHeader (Grid.exposed (request.wireText peer sig host)).headers name =
      (findHeader (wireFields peer.useTls host request.via request.hopCount (request.extras sig))
        name).map strip := by
    rw [asSent]
    exact findHeader_map strip _ name
  have encoded := encoded_chars made.size
  have named : (strip request.config.registryId).take 511 = strip request.config.registryId := by
    have short := made.short
    have shrinks := (List.dropWhile_sublist (l := request.config.registryId) (· == space)).length_le
    refine List.take_of_length_le ?_
    unfold strip
    omega
  have digits := decimal_length made.clock.1 made.clock.2
  have clock := (decimal_chars made.clock.1).2
  have arrives (name : Bytes) (known : name = grantsHeaderName ∨ name = excludeHeaderName) :
      (findHeader (Grid.exposed (request.wireText peer sig host)).headers name).getD [] =
        request.arrived peer name := by
    rw [found, forwarded' name known, arrived, forwarded]
    cases findHeader (grantFields request.claims) name with
    | none => simp [strip]
    | some value => simp [strip_carried]
  constructor
  · simp only [signatureHeaders, found, origin, signature, timestamp, Option.map_some,
      Option.bind_some, strip_carried, encoded.2.2, clock, named]
    rw [List.take_of_length_le (by omega), List.take_of_length_le (by omega)]
    simp
  · have counted : gridGetHopCount (Grid.exposed (request.wireText peer sig host)).headers =
        request.hopCount + 1 := by
      have low := made.hops.1
      have high := made.hops.2
      have read := strtoll_decimal (request.hopCount + 1) [] (by omega) (by omega) (by simp)
      rw [List.append_nil] at read
      simp only [gridGetHopCount, found, hop, Option.map_some, (decimal_chars (by omega :
        0 ≤ request.hopCount + 1)).2, atoi, read]
      rw [Int.bmod_eq_of_le (by omega) (by omega)]
    unfold signedContent
    rw [arrives _ (.inl rfl), arrives _ (.inr rfl), counted]
    simp only [gridGetVia, found, via, Option.map_some, Option.getD_some]
    rw [method, uri]

/-! ## What is verified is what was signed -/

/-- A part of a path that is longer than the path does not go on as the path does: it has no more
line feeds. -/
theorem no_longer {path part rest rest' : Bytes} (lines : part.count newline ≤ path.count newline)
    (same : part ++ newline :: rest = path ++ newline :: rest') : part.length ≤ path.length := by
  by_contra longer
  have front : path ++ [newline] <+: part ++ newline :: rest := ⟨rest', by rw [same]; simp⟩
  have inside : path ++ [newline] <+: part :=
    List.prefix_of_prefix_length_le front (List.prefix_append _ _)
      (by simp only [List.length_append, List.length_singleton]; omega)
  have more := inside.sublist.count_le newline
  rw [List.count_append, List.count_singleton_self] at more
  omega

/-- A value is stripped exactly when it starts with no blank. -/
theorem strip_eq_iff (value : Bytes) : strip value = value ↔ value.head? ≠ some space := by
  unfold strip
  cases value with
  | nil => simp
  | cons c rest =>
    by_cases blank : c = space
    · subst blank
      have shrinks := (List.dropWhile_sublist (l := rest) (· == space)).length_le
      simp only [List.dropWhile_cons, beq_self_eq_true, if_true, List.head?_cons, ne_eq,
        not_true_eq_false, iff_false]
      intro same
      have length := congrArg List.length same
      rw [List.length_cons] at length
      omega
    · simp [blank]

/-- The content that was signed. -/
theorem Made.content_eq (made : request.Made peer sig) :
    request.content = buildCanonical request.method request.path request.via
      (request.hopCount + 1) (request.forwarded grantsHeaderName)
      (request.forwarded excludeHeaderName) request.timestamp := by
  unfold content canonicalContent
  rw [made.extracted (.inl rfl), made.extracted (.inr rfl)]
  rfl

/-- Nothing changes on the way: the path is exposed as it was signed, the chain keeps its first
character, and over TLS the forwarded values fit their buffer. -/
structure Unchanged (request : PeerRequest) (peer : PeerUrl) : Prop where
  /-- The path. -/
  path : exposedPath (target peer request.path) = request.path
  /-- The chain. -/
  via : request.via.head? ≠ some space
  /-- The forwarded values. -/
  values : peer.useTls = true → (request.forwarded grantsHeaderName).length ≤ 511 ∧
    (request.forwarded excludeHeaderName).length ≤ 511

/-- The path that is exposed has no line feed that the path does not have. -/
theorem Made.path_lines (made : request.Made peer sig) :
    (exposedPath (target peer request.path)).count newline ≤ request.path.count newline := by
  have parts : newline ∉ peer.host ++ peer.port ++ peer.pathPrefix := fun member =>
    absurd (made.parts_visible _ member) (by decide)
  simp only [List.mem_append, not_or] at parts
  refine ((exposedPath_starts _).sublist.count_le newline).trans ?_
  unfold target
  split
  · have url : (fullUrl peer request.path).count newline ≤ request.path.count newline := by
      have scheme : (ascii "https").count newline = 0 ∧ (ascii "://").count newline = 0 := by
        simp only [ascii_ofList]
        decide
      have cut := (List.take_sublist 4087 (peer.host ++ colon :: peer.port ++
        (peer.pathPrefix ++ request.path))).count_le newline
      rw [fullUrl_scheme]
      simp only [List.count_append, List.count_cons, List.count_eq_zero.mpr parts.1.1,
        List.count_eq_zero.mpr parts.1.2, List.count_eq_zero.mpr parts.2, scheme] at cut ⊢
      simpa using cut
    have given : (((httpUrlParse (fullUrl peer request.path)).map HttpUrl.target).getD []).count
        newline ≤ request.path.count newline := by
      cases parsed : httpUrlParse (fullUrl peer request.path) with
      | none => simp
      | some parsed' => exact (httpUrlParse_count parsed (by decide) (by decide)).2.trans url
    unfold serializedTarget
    split
    · next inner parsed => exact (httpUrlParse_count parsed (by decide) (by decide)).1.trans given
    · exact given
  · rw [List.count_append, List.count_eq_zero.mpr parts.2, Nat.zero_add]

/-- The content that is rebuilt is the content that was signed exactly when nothing changes. -/
theorem Made.content_iff (made : request.Made peer sig) :
    buildCanonical request.method (exposedPath (target peer request.path)) (strip request.via)
        (request.hopCount + 1) (request.arrived peer grantsHeaderName)
        (request.arrived peer excludeHeaderName) request.timestamp = request.content ↔
      request.Unchanged peer := by
  rw [made.content_eq]
  have viaShrinks := (List.dropWhile_sublist (l := request.via) (· == space)).length_le
  have cut (name : Bytes) : (request.arrived peer name).length ≤ (request.forwarded name).length ∧
      (peer.useTls = true → (request.arrived peer name).length ≤ 511) := by
    unfold arrived
    split
    · have length := List.length_take_le 511 (request.forwarded name)
      have shorter := List.length_take_le' 511 (request.forwarded name)
      exact ⟨shorter, fun _ => length⟩
    · next plain => simp [plain]
  constructor
  · intro same
    unfold buildCanonical at same
    have behindMethod := (List.cons.inj (List.append_cancel_left same)).2
    -- No part is longer than it was, so none is shorter.
    have pathShrinks := no_longer made.path_lines behindMethod
    have length := congrArg List.length behindMethod
    have grants := cut grantsHeaderName
    have exclude := cut excludeHeaderName
    simp only [List.length_append, List.length_cons] at length
    unfold strip at length
    obtain ⟨path, -⟩ := List.append_inj behindMethod (by omega)
    have via : strip request.via = request.via := by
      refine List.IsSuffix.eq_of_length (List.dropWhile_suffix _) ?_
      unfold strip
      omega
    refine ⟨path, (strip_eq_iff _).mp via, fun tls => ?_⟩
    have grantsShort := grants.2 tls
    have excludeShort := exclude.2 tls
    omega
  · intro unchanged
    have kept (name : Bytes) (short : peer.useTls = true → (request.forwarded name).length ≤ 511) :
        request.arrived peer name = request.forwarded name := by
      unfold arrived
      split
      · next tls => exact List.take_of_length_le (short tls)
      · rfl
    rw [unchanged.path, (strip_eq_iff _).mpr unchanged.via,
      kept _ fun tls => (unchanged.values tls).1, kept _ fun tls => (unchanged.values tls).2]

/-! ## Acceptance -/

/-- A signature that is fresh and of the right length is accepted exactly under a key that verifies
it. -/
theorem verifyGridPeerSig_iff {config : Config} {arriving : Request} {world : World} {state : State}
    {origin sigB64 tsStr : Bytes}
    (signed : signatureHeaders arriving.headers = some (origin, sigB64, tsStr))
    (fresh : (world.time state.ticks - strtoll tsStr).natAbs ≤ 300)
    (size : (Auth.base64urlDecode sigB64 64).length = 64) :
    (world.machine.run (verifyGridPeerSig config arriving) state).value = true ↔
      ∃ key, (world.machine.run (loadPeerKey origin)
          { state with ticks := state.ticks + 1 }).value = some key ∧
        config.ed25519Verify (Auth.base64urlDecode sigB64 64)
          (signedContent arriving (strtoll tsStr)) key = true := by
  constructor
  · exact verifyGridPeerSig_loaded signed
  · intro ⟨key, loaded, verified⟩
    have late : ¬ 300 < ((world.machine.apply .time state).1 - strtoll tsStr).natAbs := by
      show ¬ 300 < (world.time state.ticks - strtoll tsStr).natAbs
      omega
    simp only [verifyGridPeerSig, signed, Handler.time, Prog.perform_bind, Machine.run_call_value,
      if_neg late, Machine.run_bind]
    have found : (world.machine.run (loadPeerKey origin) (world.machine.apply .time state).2).value =
        some key := loaded
    rw [found]
    simp only [if_neg (by omega : ¬ (Auth.base64urlDecode sigB64 64).length ≠ 64), Machine.run_done,
      verified]

/-- A request reaches its receiver. -/
structure Reaches (request : PeerRequest) (peer : PeerUrl) (receiver : Config) (world : World)
    (state : State) (sig key : Bytes) : Prop where
  /-- Something is sent. -/
  delivered : request.sent ≠ .done none
  /-- The server exposes the fields as they were sent. Where the path breaks no line it does. -/
  asSent : crlf <:+: target peer request.path → ∀ host,
    request.sent = .done (some (request.wireText peer sig host)) →
      (exposed (request.wireText peer sig host)).headers = request.sentFields peer sig host
  /-- It arrives within 300 seconds. -/
  fresh : (world.time state.ticks - request.timestamp).natAbs ≤ 300
  /-- The signature verifies for what was signed under the sender's key. -/
  genuine : receiver.ed25519Verify sig request.content key = true
  /-- For what the receiver rebuilds it verifies for no other reason. -/
  unforged : ∀ text, request.sent = .done (some text) → ∀ other,
    receiver.ed25519Verify sig (signedContent (exposed text) request.timestamp) other = true →
      signedContent (exposed text) request.timestamp = request.content ∧ other = key

/-- The receiver accepts the request. -/
def Accepted (request : PeerRequest) (receiver : Config) (world : World) (state : State) : Prop :=
  ∃ text, request.sent = .done (some text) ∧
    (world.machine.run (verifyGridPeerSig receiver (exposed text)) state).value = true

/-- The receiver's database gives the key under the sender's name. -/
def KeyFound (request : PeerRequest) (world : World) (state : State) (key : Bytes) : Prop :=
  (world.machine.run (loadPeerKey (strip request.config.registryId))
    { state with ticks := state.ticks + 1 }).value = some key

/-- What is sent arrives as a text for some host, if it fits. -/
theorem Made.sent_wire (made : request.Made peer sig) (delivered : request.sent ≠ .done none) :
    (request.Fits peer sig → ∃ host, carriageReturn ∉ host ∧
      request.sent = .done (some (request.wireText peer sig host))) ∧
    (¬ request.Fits peer sig → request.sent = .overrun) := by
  cases tls : peer.useTls with
  | false =>
    have sent := made.sent_plain tls
    have hostFree : carriageReturn ∉ peer.host ++ colon :: peer.port := by
      intro member
      have inside : carriageReturn ∈ peer.host ++ peer.port := by simpa using member
      exact absurd (made.parts_visible _ (List.mem_append_left _ inside)) (by decide)
    constructor
    · intro fits
      rw [if_pos (fits tls)] at sent
      exact ⟨_, hostFree, sent⟩
    · intro crowded
      rw [if_neg fun short => crowded fun _ => short] at sent
      exact sent
  | true =>
    have sent := made.sent_tls tls
    refine ⟨fun _ => ?_, fun crowded => absurd (fun plain => by simp [tls] at plain) crowded⟩
    cases parsed : httpUrlParse (fullUrl peer request.path) with
    | none =>
      rw [parsed] at sent
      exact absurd sent delivered
    | some parsed' =>
      cases named : parsed'.host with
      | none =>
        rw [parsed, Option.bind_some, named] at sent
        exact absurd sent delivered
      | some host =>
        rw [parsed, Option.bind_some, named] at sent
        exact ⟨host, made.host_free parsed named, sent⟩

/-- A request is accepted exactly when the receiver finds the key, the text fits its buffer and nothing
changes on the way. -/
theorem Made.accepted_iff (made : request.Made peer sig) {receiver : Config} {world : World}
    {state : State} {key : Bytes} (reaches : request.Reaches peer receiver world state sig key) :
    request.Accepted receiver world state ↔
      request.KeyFound world state key ∧ request.Fits peer sig ∧ request.Unchanged peer := by
  obtain ⟨whole, lost⟩ := made.sent_wire reaches.delivered
  by_cases fits : request.Fits peer sig
  · obtain ⟨host, hostFree, sent⟩ := whole fits
    have asSent : (Grid.exposed (request.wireText peer sig host)).headers =
        request.sentFields peer sig host := by
      by_cases broken : crlf <:+: target peer request.path
      · exact reaches.asSent broken host sent
      · exact (made.exposed hostFree).2.2 broken
    obtain ⟨signed, rebuilt⟩ := made.received hostFree asSent
    have clock : strtoll (decimal request.timestamp) = request.timestamp := by
      have low := made.clock.1
      have read := strtoll_decimal request.timestamp [] (by omega) made.clock.2 (by simp)
      rwa [List.append_nil] at read
    have decoded : Auth.base64urlDecode (Auth.base64urlEncode sig 128) 64 = sig := by
      have size := made.size
      rw [(Auth.base64url_roundTrip sig 128 64 (by omega)).1, List.take_of_length_le (by omega)]
    have verified := @verifyGridPeerSig_iff receiver _ world state _ _ _ signed
      (by rw [clock]; exact reaches.fresh) (by rw [decoded]; exact made.size)
    rw [clock, decoded] at verified
    have changed := made.content_iff
    rw [← rebuilt] at changed
    constructor
    · intro ⟨text, same, accepted⟩
      rw [sent] at same
      cases same
      obtain ⟨other, loaded, checked⟩ := verified.mp accepted
      obtain ⟨content, rfl⟩ := reaches.unforged _ sent other checked
      exact ⟨loaded, fits, changed.mp content⟩
    · intro ⟨loaded, _, unchanged⟩
      refine ⟨_, sent, verified.mpr ⟨key, loaded, ?_⟩⟩
      rw [changed.mpr unchanged]
      exact reaches.genuine
  · constructor
    · intro ⟨text, same, _⟩
      rw [lost fits] at same
      cases same
    · intro ⟨_, held, _⟩
      exact absurd held fits

/-! ## Which paths are exposed as they were signed -/

/-- A base URL without a query and a path, both from the buffers they come from. -/
structure PlainBase (request : PeerRequest) (peer : PeerUrl) : Prop where
  /-- The URL has neither a query nor a fragment. -/
  plain : ∀ c ∈ request.peerUrl, c ≠ questionMark ∧ c ≠ numberSign
  /-- The path prefix has no scheme in it. -/
  pathPrefix : ¬ ascii "://" <:+: peer.pathPrefix
  /-- A peer is added with a URL from a buffer of 512 bytes. -/
  url : request.peerUrl.length < 512
  /-- A path is put together in a buffer of 2048 bytes. -/
  path : request.path.length < 2048

/-- The parts of a plain base URL hold no delimiter. -/
theorem Made.parts_plain (made : request.Made peer sig) (base : request.PlainBase peer) :
    ∀ c ∈ peer.host ++ peer.port ++ peer.pathPrefix, c ≠ questionMark ∧ c ≠ numberSign := by
  have ports : ∀ c ∈ ascii "443" ++ ascii "80", c ≠ questionMark ∧ c ≠ numberSign := by
    simp only [ascii_ofList]
    decide +kernel
  intro c member
  rcases parsePeerUrl_chars made.url c member with url | secure | plain
  · exact base.plain c url
  · exact ports c (List.mem_append_left _ secure)
  · exact ports c (List.mem_append_right _ plain)

/-- A path that a server exposes whole: it has no query, no blank and no line end. -/
structure OneWord (path : Bytes) : Prop where
  /-- No query. -/
  query : questionMark ∉ path
  /-- No blank. -/
  blank : space ∉ path
  /-- No line end. -/
  unbroken : ¬ crlf <:+: path

/-- A path behind a plain prefix is exposed exactly when the prefix is empty and the path is one word. -/
theorem Made.prefixed_iff (made : request.Made peer sig) (base : request.PlainBase peer) :
    exposedPath (peer.pathPrefix ++ request.path) = request.path ↔
      peer.pathPrefix = [] ∧ OneWord request.path := by
  have parts : ∀ c ∈ peer.pathPrefix, space < c ∧ c ≠ questionMark := fun c member =>
    ⟨made.parts_visible c (List.mem_append_right _ member),
      (made.parts_plain base c (List.mem_append_right _ member)).1⟩
  constructor
  · intro same
    have word := exposedPath_plain (peer.pathPrefix ++ request.path)
    rw [same] at word
    have whole : exposedPath (peer.pathPrefix ++ request.path) = peer.pathPrefix ++ request.path := by
      refine exposedPath_self ?_ ?_ fun occurs => ?_
      · exact fun member => (List.mem_append.mp member).elim (fun front => (parts _ front).2 rfl) word.1
      · exact fun member => (List.mem_append.mp member).elim
          (fun front => absurd (parts _ front).1 (by decide)) word.2.1
      · exact word.2.2 (infix_behind (fun front => absurd (parts _ front).1 (by decide)) occurs)
    rw [whole] at same
    exact ⟨List.append_left_eq_self.mp same, word.1, word.2.1, word.2.2⟩
  · intro ⟨bare, word⟩
    rw [bare, List.nil_append]
    exact exposedPath_self word.query word.blank word.unbroken

/-- A plain base URL has the path exposed over plain TCP when it has no path prefix and the path is one
word. -/
theorem Made.path_plain (made : request.Made peer sig) (base : request.PlainBase peer)
    (plain : peer.useTls = false) :
    exposedPath (target peer request.path) = request.path ↔
      peer.pathPrefix = [] ∧ OneWord request.path := by
  have shape : target peer request.path = peer.pathPrefix ++ request.path := by
    simp [target, plain]
  rw [shape]
  exact made.prefixed_iff base

/-- The URL of a plain base is its authority, with the path behind a slash. -/
theorem Made.url_rooted (made : request.Made peer sig) (base : request.PlainBase peer) :
    ∃ inner, peer.pathPrefix ++ request.path = slash :: inner ∧
      fullUrl peer request.path =
        ascii "https://" ++ (peer.host ++ colon :: peer.port) ++ slash :: inner := by
  obtain ⟨-, prefixed, length⟩ := parsePeerUrl_shape made.url
  obtain ⟨rooted, root⟩ : ∃ rest, request.path = slash :: rest := by
    obtain ⟨rest, whole⟩ := made.path
    exact ⟨_, whole.symm⟩
  obtain ⟨inner, whole⟩ : ∃ inner, peer.pathPrefix ++ request.path = slash :: inner := by
    rcases prefixed with none | ⟨rest, some'⟩
    · exact ⟨rooted, by rw [none, root]; rfl⟩
    · exact ⟨rest ++ request.path, by rw [some']; rfl⟩
  have uncut : (ascii "https://" ++ peer.host ++ colon :: peer.port ++ peer.pathPrefix ++
      request.path).length < 4096 := by
    have urlShort := base.url
    have pathShort := base.path
    have scheme : (ascii "https://").length = 8 := by rw [ascii_ofList]; rfl
    simp only [List.length_append, List.length_cons, scheme]
    omega
  refine ⟨inner, whole, ?_⟩
  unfold fullUrl
  rw [snprintf_fits uncut, ← whole]
  simp

/-- A path without delimiters behind a plain prefix holds none. -/
theorem Made.prefixed_plain (made : request.Made peer sig) (base : request.PlainBase peer)
    (free : ∀ c ∈ request.path, c ≠ questionMark ∧ c ≠ numberSign) :
    ∀ c ∈ peer.pathPrefix ++ request.path, c ≠ questionMark ∧ c ≠ numberSign := by
  intro c member
  rcases List.mem_append.mp member with front | back
  · exact made.parts_plain base c (List.mem_append_right _ front)
  · exact free c back

/-- The target of the parsed URL is exposed as its path, and is the whole path when that has no
delimiters. -/
theorem Made.target_parsed (made : request.Made peer sig) (base : request.PlainBase peer)
    {parsed : HttpUrl} (found : httpUrlParse (fullUrl peer request.path) = some parsed) :
    targetPath parsed.target = parsed.path ∧
      ((∀ c ∈ request.path, c ≠ questionMark ∧ c ≠ numberSign) →
        parsed.target = peer.pathPrefix ++ request.path) := by
  obtain ⟨inner, whole, url⟩ := made.url_rooted base
  have authority : ∀ c ∈ peer.host ++ colon :: peer.port,
      c ≠ slash ∧ c ≠ questionMark ∧ c ≠ numberSign := by
    obtain ⟨hostFree, -, -⟩ := parsePeerUrl_shape made.url
    intro c member
    by_cases mark : c = colon
    · rw [mark]
      decide
    · have inside : c ∈ peer.host ++ peer.port := by
        simpa [mark] using member
      refine ⟨fun same => hostFree (same ▸ inside), ?_⟩
      exact made.parts_plain base c (List.mem_append_left _ inside)
  rw [url] at found
  obtain ⟨-, exposed, targetWhole⟩ := httpUrlParse_full found authority
  refine ⟨exposed, fun free => ?_⟩
  have all := made.prefixed_plain base free
  rw [whole] at all ⊢
  exact targetWhole (fun member => (all _ (List.mem_cons_of_mem _ member)).1 rfl)
    fun member => (all _ (List.mem_cons_of_mem _ member)).2 rfl

/-- Where the client takes the prefixed path for a URL, the path of that URL does not start with the
path of the request: the scheme would stand in the prefix. -/
theorem Made.path_notInner (made : request.Made peer sig) (base : request.PlainBase peer)
    (free : ∀ c ∈ request.path, c ≠ questionMark ∧ c ≠ numberSign) {inner : HttpUrl}
    (parsed : httpUrlParse (peer.pathPrefix ++ request.path) = some inner) :
    ¬ request.path <+: inner.path := by
  intro inside
  rcases httpUrlParse_path parsed (made.prefixed_plain base free) with slashOnly | ⟨front, split, marked⟩
  · have long := made.path.length_le.trans inside.length_le
    rw [slashOnly] at long
    exact absurd long (by decide +kernel)
  · have early : front <+: peer.pathPrefix := by
      refine List.prefix_of_prefix_length_le ⟨_, split.symm⟩ (List.prefix_append _ _) ?_
      have length := congrArg List.length split
      have longer := inside.length_le
      simp only [List.length_append] at length
      omega
    exact absurd (marked.trans early.isInfix) base.pathPrefix

/-- Over TLS the path may have no fragment either, and nothing that the client takes for a URL. -/
theorem Made.path_tls (made : request.Made peer sig) (base : request.PlainBase peer)
    (tls : peer.useTls = true) (delivered : request.sent ≠ .done none) :
    exposedPath (target peer request.path) = request.path ↔
      peer.pathPrefix = [] ∧ OneWord request.path ∧ numberSign ∉ request.path ∧
        httpUrlParse request.path = none := by
  cases parsed : httpUrlParse (fullUrl peer request.path) with
  | none =>
    have sent := made.sent_tls tls
    rw [parsed] at sent
    exact absurd sent delivered
  | some parsed' =>
    have shape : target peer request.path = serializedTarget parsed'.target := by
      simp [target, tls, parsed]
    obtain ⟨exposedPath', clear⟩ := made.target_parsed base parsed
    rw [shape]
    unfold serializedTarget
    cases again : httpUrlParse parsed'.target with
    | none =>
      constructor
      · intro same
        -- What is exposed is a part of the path, which has no fragment.
        have inside : exposedPath parsed'.target <+: parsed'.path := by
          rw [← exposedPath']
          exact exposedPath_targetPath _
        have free : ∀ c ∈ request.path, c ≠ questionMark ∧ c ≠ numberSign := by
          intro c member
          rw [← same] at member
          exact httpUrlParse_plain parsed c (inside.subset member)
        have targetSame := clear free
        rw [targetSame] at same
        obtain ⟨bare, word⟩ := (made.prefixed_iff base).mp same
        refine ⟨bare, word, fun member => (free _ member).2 rfl, ?_⟩
        rw [targetSame, bare, List.nil_append] at again
        exact again
      · intro ⟨bare, word, noFragment, _⟩
        rw [clear fun c member =>
          ⟨fun same => word.query (same ▸ member), fun same => noFragment (same ▸ member)⟩]
        exact (made.prefixed_iff base).mpr ⟨bare, word⟩
    | some inner' =>
      constructor
      · intro same
        have inside : request.path <+: inner'.path := by
          rw [← same]
          exact exposedPath_starts _
        have free : ∀ c ∈ request.path, c ≠ questionMark ∧ c ≠ numberSign := fun c member =>
          httpUrlParse_plain again c (inside.subset member)
        have targetSame := clear free
        rw [targetSame] at again
        exact absurd inside (made.path_notInner base free again)
      · intro ⟨bare, word, noFragment, unparsed⟩
        have targetSame := clear fun c member =>
          ⟨fun same => word.query (same ▸ member), fun same => noFragment (same ▸ member)⟩
        rw [targetSame, bare, List.nil_append, unparsed] at again
        cases again

/-! ## Verification as a whole -/

/-- The sender's key is stored for its name, which holds no apostrophe and starts with no blank, and
the database answers. -/
structure Registered (request : PeerRequest) (world : World) (state : State) (key : Bytes) :
    Prop where
  /-- Names are unique. -/
  unique : (state.db.peers.map PeerRow.peerId).Nodup
  /-- The key is stored. -/
  stored : KeyOf state.db request.config.registryId key
  /-- The query text means the name. -/
  plain : apostrophe ∉ request.config.registryId
  /-- The name arrives whole. -/
  start : request.config.registryId.head? ≠ some space
  /-- The query is answered. -/
  answers : world.dbFails (state.ticks + 1) = false

/-- The key of a sender that is registered is found. -/
theorem Made.keyFound (made : request.Made peer sig) {world : World} {state : State} {key : Bytes}
    (registered : request.Registered world state key) : request.KeyFound world state key := by
  have short := made.short
  have bound := (lex_keySql_iff request.config.registryId).mpr ⟨registered.plain, by omega⟩
  obtain ⟨row, member, named, enabled, hex, stored, loads⟩ := registered.stored
  have single := peerKeys_unique registered.unique request.config.registryId
  have listed : hex ∈ state.db.peerKeys request.config.registryId :=
    List.mem_filterMap.mpr ⟨row, List.mem_filter.mpr ⟨member, by simp [named, enabled]⟩, stored⟩
  have only : state.db.peerKeys request.config.registryId = [hex] := by
    generalize state.db.peerKeys request.config.registryId = keys at single listed
    match keys, single, listed with
    | [other], _, listed => rw [List.mem_singleton.mp listed]
  have rows : (world.machine.apply (.query (keySql request.config.registryId))
      { state with ticks := state.ticks + 1 }).1 = [[some hex]] := by
    simp [World.machine, World.apply, World.answerQuery, bound, keyQueryPeer_keyQuery,
      registered.answers, only]
  unfold KeyFound
  rw [(strip_eq_iff _).mpr registered.start]
  simp only [loadPeerKey, Handler.query, Prog.perform_bind, Machine.run_call_value, rows,
    Machine.run_done]
  exact loads

end PeerRequest

/-! ## A request with a query -/

/-- The key of the registry that asks. -/
def askerKey : Bytes :=
  [0x3B, 0x6A, 0x27, 0xBC, 0xCE, 0xB6, 0xA4, 0x2D, 0x62, 0xA3, 0xA8, 0xD0, 0x2A, 0x6F, 0x0D,
    0x73, 0x65, 0x32, 0x15, 0x77, 0x1D, 0xE2, 0x43, 0xA6, 0x3A, 0xC0, 0x48, 0xA1, 0x8B, 0x59,
    0xDA, 0x29]

/-- What is signed of a resolve request. -/
def resolveContent (path : Bytes) : Bytes :=
  ascii "GET\n" ++ path ++ ascii "\ncentral\n1\n\n\n1700000000\n"

/-- A resolve request with its signature. -/
def resolveRequest (path sig : Bytes) : PeerRequest where
  config :=
    { openConfig with sign := fun content => if content = resolveContent path then some sig else none }
  peerUrl := ascii "http://main:8080"
  method := ascii "GET"
  path := path
  viaChain := none
  hopCount := 0
  claims := ⟨2, none, none⟩
  extraHeaders := none
  timestamp := 1700000000

/-- The registry that is asked. -/
def askedConfig (path sig : Bytes) : Config :=
  { openConfig with
    registryId := ascii "main"
    gridPeerAuth := true
    ed25519Verify := fun signature content key =>
      decide (signature = sig ∧ content = resolveContent path ∧ key = askerKey) }

/-- The state in which the asker is registered. -/
def askedState : State where
  db :=
    { Database.empty with
      peers := [⟨ascii "central", ascii "Central", ascii "http://central:8080", ascii "r", 100, 1,
        some (ascii "3b6a27bcceb6a42d62a3a8d02a6f0d73" ++ ascii "653215771de243a63ac048a18b59da29"),
        ascii "2026"⟩] }
  objects := []
  revoked := []
  buckets := []
  ticks := 0

/-- The world a hundred seconds later. -/
def laterWorld : World := { quietWorld with time := fun _ => 1700000100 }

/-- The peer of the request. -/
def askedPeer : PeerUrl := ⟨false, ascii "main", ascii "8080", []⟩

/-- The content of the request. -/
theorem resolveRequest_content (path sig : Bytes) :
    (resolveRequest path sig).content = resolveContent path := by
  have behind : newline :: ((resolveRequest path sig).via ++ newline :: (decimal 1 ++
      newline :: (newline :: (newline :: (decimal 1700000000 ++ [newline]))))) =
      ascii "\ncentral\n1\n\n\n1700000000\n" := by
    show newline :: (viaHeader (ascii "central") none ++ newline :: (decimal 1 ++
      newline :: (newline :: (newline :: (decimal 1700000000 ++ [newline]))))) = _
    decide +kernel
  have front : ascii "GET" ++ [newline] = ascii "GET\n" := by decide +kernel
  unfold resolveContent
  rw [← behind, ← front]
  simp [PeerRequest.content, canonicalContent, buildCanonical, resolveRequest,
    extractHeaderValue, PeerRequest.via]

/-- The request is made as the handlers make it. -/
theorem resolveRequest_made {path sig : Bytes} (rooted : ascii "/grid/" <+: path)
    (size : sig.length = 64) :
    (resolveRequest path sig).Made askedPeer sig where
  url := by
    show parsePeerUrl (ascii "http://main:8080") = some askedPeer
    decide +kernel
  method := .inl rfl
  path := rooted
  visible := by
    show ∀ c ∈ ascii "http://main:8080", space < c
    decide +kernel
  headers := rfl
  lines := by
    show ∀ field ∈ grantFields ⟨2, none, none⟩, ¬ crlf <:+: field.2
    decide
  name := by
    show ¬ crlf <:+: ascii "central"
    decide +kernel
  short := by
    show (ascii "central").length < 128
    decide +kernel
  chain := by simp [resolveRequest]
  hops := by simp [resolveRequest]
  clock := by simp [resolveRequest]
  key := rfl
  signed := by
    have content := resolveRequest_content path sig
    simp only [resolveRequest] at content ⊢
    simp [content]
  size := size

/-- It reaches the registry that is asked. -/
theorem resolveRequest_reaches {path sig : Bytes} (rooted : ascii "/grid/" <+: path)
    (unbroken : ¬ crlf <:+: path) (size : sig.length = 64) :
    (resolveRequest path sig).Reaches askedPeer (askedConfig path sig) laterWorld askedState sig
      askerKey where
  delivered := by
    rw [(resolveRequest_made rooted size).sent_plain rfl]
    split <;> simp
  asSent broken := absurd broken unbroken
  fresh := by
    show ((1700000100 : Int) - 1700000000).natAbs ≤ 300
    decide
  genuine := by
    simp [askedConfig, resolveRequest_content]
  unforged text sent other verified := by
    have parts := of_decide_eq_true verified
    exact ⟨parts.2.1.trans (resolveRequest_content path sig).symm, parts.2.2⟩

/-- The asker is registered. -/
theorem resolveRequest_registered (path sig : Bytes) :
    (resolveRequest path sig).Registered laterWorld askedState askerKey where
  unique := by decide +kernel
  stored := by
    refine ⟨_, List.mem_singleton.mpr rfl, rfl, rfl, _, rfl, ?_⟩
    decide +kernel
  plain := by
    show apostrophe ∉ ascii "central"
    decide +kernel
  start := by
    show (ascii "central").head? ≠ some space
    decide +kernel
  answers := rfl

/-- The path of a resolve request. -/
def rangePath : Bytes := ascii "/grid/resolve/org" ++ ascii "/acme/core/^1.0.0"

/-- The signature of its content. -/
def rangeSig : Bytes :=
  [0xC6, 0x94, 0x72, 0x71, 0x61, 0x23, 0x12, 0xCE, 0x3A, 0x04, 0x62, 0xC0, 0x60, 0x45, 0xCE,
    0xBD, 0x2D, 0xD9, 0xA2, 0x0C, 0xE1, 0x43, 0xA7, 0xB6, 0xBA, 0x06, 0x70, 0xDD, 0xD2, 0xC0,
    0x9B, 0x22, 0x47, 0x94, 0xA5, 0xE7, 0xDC, 0x3A, 0xD6, 0x0C, 0xFB, 0xE4, 0x3C, 0xAC, 0x4E,
    0x18, 0x51, 0x9C, 0x5E, 0x1D, 0xDD, 0xEB, 0x12, 0xBF, 0x98, 0x8F, 0x4C, 0xE3, 0x04, 0x72,
    0x1D, 0x80, 0x27, 0x06]

/-- The path with the query that the client's request had. -/
def snapshotPath : Bytes := rangePath ++ ascii "?snapshot=true"

/-- The signature of this content. -/
def snapshotSig : Bytes :=
  [0x90, 0x44, 0x64, 0x56, 0x30, 0x14, 0x1A, 0x68, 0xE6, 0xF4, 0x5E, 0x84, 0x62, 0x7E, 0x0E,
    0x8D, 0x85, 0xB7, 0x9A, 0xD9, 0x7A, 0x07, 0xAF, 0x37, 0x1F, 0x1D, 0xDC, 0xEF, 0x39, 0xFA,
    0x18, 0xC3, 0xA6, 0x4A, 0xF0, 0x78, 0x45, 0x04, 0x1F, 0x4B, 0xB9, 0x5C, 0x27, 0x2C, 0x35,
    0x0C, 0xBB, 0x90, 0x9D, 0x93, 0xC1, 0xE4, 0x02, 0x6E, 0x9A, 0xBB, 0xD2, 0x0A, 0xBC, 0x2E,
    0xD0, 0x00, 0x61, 0x02]

end Cookbook.Grid
