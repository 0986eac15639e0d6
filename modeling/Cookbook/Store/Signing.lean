import Cookbook.Auth.Jwt
import Cookbook.Crypto.Hmac
import Cookbook.Library.Calendar
import Cookbook.Library.Form

/-!
# Requests to the object store

The S3 store signs every request: the path of the object is percent-encoded and goes into a
canonical request, whose digest is signed with a key derived from the secret, the day and the
region. The request itself is then written with the path as it was before the encoding.
-/
namespace Cookbook.Store

open Library.Text Library.Form Library.Calendar Cookbook.Auth Cookbook.Crypto

/-! ## Encodings -/

/-- The characters that `uri_encode` keeps. -/
def isKept (c : UInt8) : Bool :=
  (decide (0x41 ≤ c) && decide (c ≤ 0x5A)) || (decide (0x61 ≤ c) && decide (c ≤ 0x7A)) ||
    isDecimal c || c == 0x2D || c == 0x5F || c == 0x2E || c == 0x7E || c == 0x2F

/-- An upper-case hexadecimal digit. -/
def upperHexDigit (value : Nat) : UInt8 :=
  UInt8.ofNat (if value < 10 then 0x30 + value else 0x37 + value)

/-- `%%%02X` -/
def escape (c : UInt8) : Bytes :=
  [percent, upperHexDigit (c.toNat / 16), upperHexDigit (c.toNat % 16)]

/-- The loop of `uri_encode`, which ends when an escape might not fit any more. -/
def uriEncodeLoop (outSz : Nat) : Nat → Bytes → Bytes
  | _, [] => []
  | j, c :: input =>
    if j + 3 < outSz then
      if isKept c then c :: uriEncodeLoop outSz (j + 1) input
      else escape c ++ uriEncodeLoop outSz (j + 3) input
    else []

/-- `uri_encode` -/
def uriEncode (input : Bytes) (outSz : Nat) : Bytes := uriEncodeLoop outSz 0 input

/-- `hex_encode` -/
def hexEncode (data : Bytes) : Bytes :=
  data.flatMap fun byte => [hexDigit (byte.toNat / 16), hexDigit (byte.toNat % 16)]

/-- `cookbook_sha256_hex`. What the buffer of the context holds before is of no consequence. -/
def cookbookSha256Hex (data : Bytes) : Bytes :=
  hexEncode (sha256Final (sha256Update (sha256Init (List.replicate 64 0)) data))

/-! ## The store and its requests -/

/-- `cookbook_store_s3` -/
structure S3Store where
  /-- The bucket. -/
  bucket : Bytes
  /-- The region. -/
  region : Bytes
  /-- The name of the key. -/
  accessKey : Bytes
  /-- The secret of the key. -/
  secretKey : Bytes
  /-- The host of the endpoint. -/
  endpointHost : Bytes
  /-- The port of the endpoint. -/
  endpointPort : Bytes
  /-- Whether the bucket stands in the path and not in the host. -/
  pathStyle : Bool

/-- `cookbook_store_open_s3`: an endpoint is cut at its last colon, and none is Amazon's. -/
def cookbookStoreOpenS3 (bucket region accessKey secretKey endpoint : Bytes) : S3Store :=
  if endpoint ≠ [] then
    let host := (endpoint.reverse.dropWhile (· != colon)).drop 1
    let port := (endpoint.reverse.takeWhile (· != colon)).reverse
    if colon ∈ endpoint then
      ⟨bucket, region, accessKey, secretKey, host.reverse, port, true⟩
    else ⟨bucket, region, accessKey, secretKey, endpoint, ascii "443", true⟩
  else ⟨bucket, region, accessKey, secretKey, ascii "s3.amazonaws.com", ascii "443", false⟩

/-- What `aws_timestamp` prints. -/
structure AwsTime where
  /-- The date in eight digits. -/
  date8 : Bytes
  /-- There are eight of them. -/
  eight : date8.length = 8
  /-- The time of the day in six digits. -/
  clock : Bytes
  /-- There are six of them. -/
  six : clock.length = 6

/-- The second text: the date, a `T`, the time of the day and a `Z`. -/
def AwsTime.datetime (time : AwsTime) : Bytes := time.date8 ++ 0x54 :: (time.clock ++ [0x5A])

/-- The hash-based code of the cryptographic library, with a key and a message. -/
structure Hmac where
  /-- `hmac_sha256` -/
  hmacSha256 : Bytes → Bytes → Bytes
  /-- The code has 32 bytes. -/
  width : ∀ key data, (hmacSha256 key data).length = 32

/-- The date of a day in eight digits. -/
def date8Text (date : CivilDate) : Bytes :=
  decimal date.year ++ twoDigits date.month ++ twoDigits date.day

/-- The time of a day in six digits. -/
def clockText (seconds : Int) : Bytes :=
  twoDigits (seconds / 3600) ++ twoDigits (seconds / 60 % 60) ++ twoDigits (seconds % 60)

/-- A date has eight digits when its year has four. -/
theorem date8Text_length (days : Int)
    (shown : 1000 ≤ (civilDate days).year ∧ (civilDate days).year ≤ 9999) :
    (date8Text (civilDate days)).length = 8 := by
  obtain ⟨month, day⟩ := civilDate_inside days
  rw [date8Text, List.length_append, List.length_append, decimal_fourDigits shown.1 shown.2,
    twoDigits_length (by omega) (by omega), twoDigits_length (by omega) (by omega)]

/-- A time of the day has six digits. -/
theorem clockText_length (now : Int) : (clockText (now % 86400)).length = 6 := by
  rw [clockText, List.length_append, List.length_append, twoDigits_length (by omega) (by omega),
    twoDigits_length (by omega) (by omega), twoDigits_length (by omega) (by omega)]

/-- `aws_timestamp`: nothing where the year does not have the four digits that the buffers have room
for. -/
def awsTimestamp (now : Int) : Option AwsTime :=
  if shown : 1000 ≤ (civilDate (now / 86400)).year ∧ (civilDate (now / 86400)).year ≤ 9999 then
    some ⟨date8Text (civilDate (now / 86400)), date8Text_length _ shown, clockText (now % 86400),
      clockText_length now⟩
  else none

/-- `hmac_sha256` -/
def hmacSha256 (key data : Bytes) : Bytes :=
  Apennines.hmacFinal (Apennines.hmacUpdate (Apennines.hmacCreate key) data)

/-- A code has 32 bytes. -/
theorem hmacSha256_length (key data : Bytes) : (hmacSha256 key data).length = 32 :=
  Apennines.hmacFinal_length _

/-- The code of the program. -/
def programHmac : Hmac := ⟨hmacSha256, hmacSha256_length⟩

/-- The operations of the store, with what they send. -/
inductive S3Operation
  /-- `s3_put` -/
  | put (data : Bytes)
  /-- `s3_get` -/
  | get
  /-- `s3_exists` -/
  | exists
  /-- `s3_del` -/
  | del

/-- The method of an operation. -/
def S3Operation.method : S3Operation → Bytes
  | .put _ => ascii "PUT"
  | .get => ascii "GET"
  | .exists => ascii "HEAD"
  | .del => ascii "DELETE"

/-- The body of an operation. -/
def S3Operation.body : S3Operation → Bytes
  | .put data => data
  | _ => []

/-! ## `s3_sign_request` -/

/-- The path of an object: the key, behind the bucket unless the host names it. -/
def objectPath (store : S3Store) (path : Bytes) : Bytes :=
  if store.pathStyle then slash :: (store.bucket ++ slash :: path) else slash :: path

/-- `canonical_uri` -/
def canonicalUri (store : S3Store) (path : Bytes) : Bytes := snprintf 2048 (objectPath store path)

/-- `encoded_uri` -/
def encodedUri (store : S3Store) (path : Bytes) : Bytes := uriEncode (canonicalUri store path) 4096

/-- The host, in front of it the bucket unless the path names it. -/
def bucketHost (store : S3Store) : Bytes :=
  if store.pathStyle then store.endpointHost
  else store.bucket ++ ascii "." ++ store.endpointHost

/-- The text of the host header: the standard ports are not named. -/
def hostText (store : S3Store) : Bytes :=
  if store.endpointPort = ascii "80" ∨ store.endpointPort = ascii "443" then bucketHost store
  else bucketHost store ++ ascii ":" ++ store.endpointPort

/-- `host` -/
def hostHeader (store : S3Store) : Bytes := snprintf 512 (hostText store)

/-- The canonical form of the headers. -/
def headersText (host contentSha256 datetime : Bytes) : Bytes :=
  ascii "host:" ++ host ++ ascii "\n" ++ ascii "x-amz-content-sha256:" ++ contentSha256 ++
    ascii "\n" ++ ascii "x-amz-date:" ++ datetime ++ ascii "\n"

/-- `signed_headers` -/
def signedHeaders : Bytes := ascii "host;x-amz-content-sha256;x-amz-date"

/-- The canonical form of a request. -/
def requestText (method uri headers contentSha256 : Bytes) : Bytes :=
  method ++ ascii "\n" ++ uri ++ ascii "\n\n" ++ headers ++ ascii "\n" ++ signedHeaders ++
    ascii "\n" ++ contentSha256

/-- The scope of a signature. -/
def scopeText (date8 region : Bytes) : Bytes :=
  date8 ++ ascii "/" ++ region ++ ascii "/s3/aws4_request"

/-- What is signed. -/
def signedText (datetime scope digest : Bytes) : Bytes :=
  ascii "AWS4-HMAC-SHA256\n" ++ datetime ++ ascii "\n" ++ scope ++ ascii "\n" ++ digest

/-- The first key of the chain. -/
def secretText (secretKey : Bytes) : Bytes := ascii "AWS4" ++ secretKey

/-- The chain of keys behind the first. -/
def chainedKey (hmac : Hmac) (first date8 region : Bytes) : Bytes :=
  let dateKey := hmac.hmacSha256 first date8
  let regionKey := hmac.hmacSha256 dateKey region
  let serviceKey := hmac.hmacSha256 regionKey (ascii "s3")
  hmac.hmacSha256 serviceKey (ascii "aws4_request")

/-- The value of the authorization header. -/
def credentialText (accessKey scope signature : Bytes) : Bytes :=
  ascii "AWS4-HMAC-SHA256 Credential=" ++ accessKey ++ ascii "/" ++ scope ++
    ascii ",SignedHeaders=" ++ signedHeaders ++ ascii ",Signature=" ++ signature

/-- The head of a request on the wire. -/
def wireText (method target host datetime contentSha256 authorization : Bytes)
    (contentLength : Nat) : Bytes :=
  method ++ ascii " " ++ target ++ ascii " HTTP/1.1\r\n" ++
    ascii "Host: " ++ host ++ ascii "\r\n" ++
    ascii "x-amz-date: " ++ datetime ++ ascii "\r\n" ++
    ascii "x-amz-content-sha256: " ++ contentSha256 ++ ascii "\r\n" ++
    ascii "Authorization: " ++ authorization ++ ascii "\r\n" ++
    ascii "Content-Length: " ++ decimalNat contentLength ++ ascii "\r\n" ++ ascii "\r\n"

section Signing

variable (hmac : Hmac) (store : S3Store) (time : AwsTime) (method path contentSha256 : Bytes)

/-- `canonical_headers` -/
def canonicalHeaders : Bytes :=
  snprintf 2048 (headersText (hostHeader store) contentSha256 time.datetime)

/-- `canonical_request` -/
def canonicalRequest : Bytes :=
  snprintf 8192 (requestText method (encodedUri store path)
    (canonicalHeaders store time contentSha256) contentSha256)

/-- `scope` -/
def credentialScope : Bytes := snprintf 128 (scopeText time.date8 store.region)

/-- `string_to_sign` -/
def stringToSign : Bytes :=
  snprintf 512 (signedText time.datetime (credentialScope store time)
    (cookbookSha256Hex (canonicalRequest store time method path contentSha256)))

/-- `key_buf` -/
def keyBuf : Bytes := snprintf 256 (secretText store.secretKey)

/-- `derive_signing_key` -/
def deriveSigningKey : Bytes := chainedKey hmac (keyBuf store) time.date8 store.region

/-- `signature` -/
def signature : Bytes :=
  hexEncode (hmac.hmacSha256 (deriveSigningKey hmac store time)
    (stringToSign store time method path contentSha256))

/-- `auth_header` -/
def authHeader : Bytes :=
  snprintf 512 (credentialText store.accessKey (credentialScope store time)
    (signature hmac store time method path contentSha256))

/-- `s3_sign_request`: the path stands in the request as it was before the encoding. -/
def s3SignRequest (contentLength : Nat) : Bytes :=
  snprintf (4096 + contentLength) (wireText method (canonicalUri store path) (hostHeader store)
    time.datetime contentSha256 (authHeader hmac store time method path contentSha256)
    contentLength)

end Signing

/-- The head that an operation of the store sends for a key. -/
def S3Operation.request (hmac : Hmac) (store : S3Store) (time : AwsTime) (operation : S3Operation)
    (key : Bytes) : Bytes :=
  s3SignRequest hmac store time operation.method key (cookbookSha256Hex operation.body)
    operation.body.length

/-! ## What the other side reads -/

/-- The target of a request: what stands between its first and its second space. -/
def requestTarget (request : Bytes) : Bytes :=
  ((request.dropWhile (· != space)).drop 1).takeWhile (· != space)

/-- The path that a target addresses: it ends in front of a query, and its escapes are decoded. -/
def addressedPath (target : Bytes) : Bytes := percentDecode (target.takeWhile (· != 0x3F))

/-- A path with its escapes, however long. -/
def encodedPath (path : Bytes) : Bytes := path.flatMap fun c => if isKept c then [c] else escape c

/-- A request as a server takes it from the wire. -/
structure WireRequest where
  /-- The method. -/
  method : Bytes
  /-- The target. -/
  target : Bytes
  /-- The host header. -/
  host : Bytes
  /-- The date header. -/
  datetime : Bytes
  /-- The digest header. -/
  contentSha256 : Bytes
  /-- The authorization header. -/
  authorization : Bytes
  /-- The length of the body. -/
  contentLength : Nat

/-- The head of the request. -/
def WireRequest.text (request : WireRequest) : Bytes :=
  wireText request.method request.target request.host request.datetime request.contentSha256
    request.authorization request.contentLength

/-- The authorization that a server computes for a request and a key it knows: the path that the
target addresses is encoded once more, and no text has a bound. -/
def expectedAuthorization (hmac : Hmac) (region accessKey secretKey : Bytes)
    (request : WireRequest) : Bytes :=
  let date8 := request.datetime.take 8
  let scope := scopeText date8 region
  let canonical := requestText request.method (encodedPath (addressedPath request.target))
    (headersText request.host request.contentSha256 request.datetime) request.contentSha256
  let key := chainedKey hmac (secretText secretKey) date8 region
  credentialText accessKey scope (hexEncode (hmac.hmacSha256 key
    (signedText request.datetime scope (cookbookSha256Hex canonical))))

/-! ## Lengths -/

/-- A hexadecimal text is twice as long as its bytes. -/
theorem hexEncode_length (data : Bytes) : (hexEncode data).length = 2 * data.length := by
  induction data with
  | nil => rfl
  | cons byte data ih =>
    rw [hexEncode, List.flatMap_cons, List.length_append, ← hexEncode, ih]
    simp only [List.length_cons, List.length_nil]
    omega

/-- A digest has 64 digits. -/
theorem cookbookSha256Hex_length (data : Bytes) : (cookbookSha256Hex data).length = 64 := by
  rw [cookbookSha256Hex, hexEncode_length]
  simp [sha256Final, storeWords256, Library.Sha2.Eight.toList]

/-- The second text of a time has 16 characters. -/
theorem AwsTime.datetime_length (time : AwsTime) : time.datetime.length = 16 := by
  simp [AwsTime.datetime, time.eight, time.six]

/-- The date is the front of the second text. -/
theorem AwsTime.take_datetime (time : AwsTime) : time.datetime.take 8 = time.date8 := by
  rw [AwsTime.datetime, ← time.eight, List.take_left]

/-- A number prints no more digits than it counts, and one. -/
theorem decimalNat_length (number : Nat) : (decimalNat number).length ≤ number + 1 := by
  have short := prependDigits_length (number + 1) number number []
    ((Nat.lt_pow_self (by decide)).trans_le (Nat.pow_le_pow_right (by decide) (by omega)))
  simpa [decimalNat] using short

/-- The length of the canonical headers. -/
theorem headersText_length (host contentSha256 datetime : Bytes) :
    (headersText host contentSha256 datetime).length =
      40 + host.length + contentSha256.length + datetime.length := by
  simp [headersText, ascii]
  omega

/-- The length of a canonical request. -/
theorem requestText_length (method uri headers contentSha256 : Bytes) :
    (requestText method uri headers contentSha256).length =
      41 + method.length + uri.length + headers.length + contentSha256.length := by
  simp [requestText, signedHeaders, ascii]
  omega

/-- The length of a scope. -/
theorem scopeText_length (date8 region : Bytes) :
    (scopeText date8 region).length = 17 + date8.length + region.length := by
  simp [scopeText, ascii]
  omega

/-- The length of what is signed. -/
theorem signedText_length (datetime scope digest : Bytes) :
    (signedText datetime scope digest).length =
      19 + datetime.length + scope.length + digest.length := by
  simp [signedText, ascii]
  omega

/-- The length of an authorization. -/
theorem credentialText_length (accessKey scope signature : Bytes) :
    (credentialText accessKey scope signature).length =
      91 + accessKey.length + scope.length + signature.length := by
  simp [credentialText, signedHeaders, ascii]
  omega

/-- The length of the head of a request. -/
theorem wireText_length (method target host datetime contentSha256 authorization : Bytes)
    (contentLength : Nat) :
    (wireText method target host datetime contentSha256 authorization contentLength).length =
      95 + method.length + target.length + host.length + datetime.length +
        contentSha256.length + authorization.length + (decimalNat contentLength).length := by
  have version : (ascii " HTTP/1.1\r\n").length = 11 := by decide
  have names : (ascii "Host: ").length = 6 ∧ (ascii "x-amz-date: ").length = 12 ∧
      (ascii "x-amz-content-sha256: ").length = 22 ∧ (ascii "Authorization: ").length = 15 ∧
      (ascii "Content-Length: ").length = 16 := by decide
  have ends : (ascii " ").length = 1 ∧ (ascii "\r\n").length = 2 := by decide
  unfold wireText
  generalize decimalNat contentLength = digits
  simp only [List.length_append, version, names, ends]
  omega

/-- A text stands whole in its buffer exactly if its terminator has its place. -/
theorem snprintf_eq_iff {size : Nat} (positive : 0 < size) (text : Bytes) :
    snprintf size text = text ↔ text.length < size := by
  rw [snprintf, List.take_eq_self_iff]
  omega

/-! ## The encoded path -/

/-- A character that is kept is no blank, no percent sign and no question mark. -/
theorem kept_plain : ∀ c : UInt8, isKept c = true → c ≠ space ∧ c ≠ percent ∧ c ≠ 0x3F :=
  byte_forall (by decide +kernel)

/-- A path of kept characters is encoded as itself. -/
theorem encodedPath_kept {path : Bytes} (kept : ∀ c ∈ path, isKept c = true) :
    encodedPath path = path := by
  induction path with
  | nil => rfl
  | cons c path ih =>
    rw [List.forall_mem_cons] at kept
    rw [encodedPath, List.flatMap_cons, if_pos kept.1, ← encodedPath, ih kept.2,
      List.singleton_append]

/-- An escape makes a path longer. -/
theorem encodedPath_length (path : Bytes) :
    path.length ≤ (encodedPath path).length ∧
      ((encodedPath path).length ≤ path.length → ∀ c ∈ path, isKept c = true) := by
  induction path with
  | nil => exact ⟨le_rfl, fun _ c member => absurd member List.not_mem_nil⟩
  | cons c path ih =>
    rw [encodedPath, List.flatMap_cons, ← encodedPath, List.length_append, List.length_cons,
      List.forall_mem_cons]
    by_cases kept : isKept c = true
    · rw [if_pos kept, List.length_singleton]
      exact ⟨by omega, fun short => ⟨kept, ih.2 (by omega)⟩⟩
    · rw [if_neg kept, show (escape c).length = 3 from rfl]
      exact ⟨by omega, fun short => by omega⟩

/-- The loop writes a path whole that leaves room for one more escape. -/
theorem uriEncodeLoop_whole {outSz : Nat} (path : Bytes) (j : Nat)
    (room : j + (encodedPath path).length + 2 < outSz) :
    uriEncodeLoop outSz j path = encodedPath path := by
  induction path generalizing j with
  | nil => rfl
  | cons c path ih =>
    rw [encodedPath, List.flatMap_cons, ← encodedPath] at room ⊢
    rw [List.length_append] at room
    by_cases kept : isKept c = true
    · rw [if_pos kept, List.length_singleton] at room
      rw [uriEncodeLoop, if_pos (by omega), if_pos kept, if_pos kept, ih (j + 1) (by omega),
        List.singleton_append]
    · rw [if_neg kept, show (escape c).length = 3 from rfl] at room
      rw [uriEncodeLoop, if_pos (by omega), if_neg kept, if_neg kept, ih (j + 3) (by omega)]

/-- A path that the loop does not write whole fills the buffer up to one escape. -/
theorem uriEncodeLoop_cut {outSz : Nat} (path : Bytes) (j : Nat) :
    uriEncodeLoop outSz j path = encodedPath path ∨
      outSz ≤ j + (uriEncodeLoop outSz j path).length + 3 := by
  induction path generalizing j with
  | nil => exact .inl rfl
  | cons c path ih =>
    rw [encodedPath, List.flatMap_cons, ← encodedPath]
    by_cases room : j + 3 < outSz
    · by_cases kept : isKept c = true
      · rw [uriEncodeLoop, if_pos room, if_pos kept, if_pos kept, List.length_cons,
          List.singleton_append]
        rcases ih (j + 1) with whole | cut
        · exact .inl (congrArg (c :: ·) whole)
        · exact .inr (by omega)
      · rw [uriEncodeLoop, if_pos room, if_neg kept, if_neg kept, List.length_append,
          show (escape c).length = 3 from rfl]
        rcases ih (j + 3) with whole | cut
        · exact .inl (congrArg (escape c ++ ·) whole)
        · exact .inr (by omega)
    · exact .inr (by omega)

/-! ## The request on the wire -/

/-- No method holds a blank, and none is longer than six characters. -/
theorem S3Operation.method_plain (operation : S3Operation) :
    space ∉ operation.method ∧ operation.method.length ≤ 6 := by
  cases operation <;> simp only [S3Operation.method] <;> decide

/-- A request is its method, its target and a rest, with blanks between. -/
theorem wireText_split (method target host datetime contentSha256 authorization : Bytes)
    (contentLength : Nat) :
    ∃ rest, wireText method target host datetime contentSha256 authorization contentLength =
      method ++ space :: (target ++ space :: rest) := by
  have version : ascii " HTTP/1.1\r\n" = space :: ascii "HTTP/1.1\r\n" := by decide
  have blank : ascii " " = [space] := by decide
  refine ⟨ascii "HTTP/1.1\r\n" ++ (ascii "Host: " ++ (host ++ (ascii "\r\n" ++
    (ascii "x-amz-date: " ++ (datetime ++ (ascii "\r\n" ++ (ascii "x-amz-content-sha256: " ++
    (contentSha256 ++ (ascii "\r\n" ++ (ascii "Authorization: " ++ (authorization ++
    (ascii "\r\n" ++ (ascii "Content-Length: " ++ (decimalNat contentLength ++
    (ascii "\r\n" ++ ascii "\r\n"))))))))))))))), ?_⟩
  unfold wireText
  generalize decimalNat contentLength = digits
  simp only [version, blank, List.append_assoc, List.cons_append, List.nil_append]

/-- The text in front of a delimiter is cut at the first one in it. -/
theorem takeWhile_before (text rest : Bytes) (stop : UInt8) :
    (text ++ stop :: rest).takeWhile (· != stop) = text.takeWhile (· != stop) := by
  induction text with
  | nil => simp
  | cons c text ih => rw [List.cons_append, List.takeWhile_cons, List.takeWhile_cons, ih]

/-- The target of a request is its path, up to a blank in it. -/
theorem requestTarget_wireText {method : Bytes} (plain : space ∉ method)
    (target host datetime contentSha256 authorization : Bytes) (contentLength : Nat) :
    requestTarget (wireText method target host datetime contentSha256 authorization
      contentLength) = target.takeWhile (· != space) := by
  obtain ⟨rest, split⟩ := wireText_split method target host datetime contentSha256 authorization
    contentLength
  rw [split, requestTarget, dropWhile_ne_stop plain, List.drop_one, List.tail_cons,
    takeWhile_before]

/-! ## When the request carries what was signed -/

section Sent

variable (hmac : Hmac) (store : S3Store) (time : AwsTime) (operation : S3Operation) (key : Bytes)

/-- Every text that the request is made of stands whole in its buffer. -/
structure Uncut : Prop where
  /-- The path. -/
  path : canonicalUri store key = objectPath store key
  /-- The encoded path. -/
  encoded : encodedUri store key = encodedPath (canonicalUri store key)
  /-- The host header. -/
  host : hostHeader store = hostText store
  /-- The canonical headers. -/
  headers : canonicalHeaders store time (cookbookSha256Hex operation.body) =
    headersText (hostHeader store) (cookbookSha256Hex operation.body) time.datetime
  /-- The canonical request. -/
  request : canonicalRequest store time operation.method key (cookbookSha256Hex operation.body) =
    requestText operation.method (encodedUri store key)
      (canonicalHeaders store time (cookbookSha256Hex operation.body))
      (cookbookSha256Hex operation.body)
  /-- The scope. -/
  scope : credentialScope store time = scopeText time.date8 store.region
  /-- What is signed. -/
  signed : stringToSign store time operation.method key (cookbookSha256Hex operation.body) =
    signedText time.datetime (credentialScope store time) (cookbookSha256Hex
      (canonicalRequest store time operation.method key (cookbookSha256Hex operation.body)))
  /-- The first key. -/
  secret : keyBuf store = secretText store.secretKey
  /-- The authorization. -/
  credential : authHeader hmac store time operation.method key
      (cookbookSha256Hex operation.body) =
    credentialText store.accessKey (credentialScope store time)
      (signature hmac store time operation.method key (cookbookSha256Hex operation.body))
  /-- The head of the request. -/
  head : operation.request hmac store time key =
    wireText operation.method (canonicalUri store key) (hostHeader store) time.datetime
      (cookbookSha256Hex operation.body)
      (authHeader hmac store time operation.method key (cookbookSha256Hex operation.body))
      operation.body.length

/-- The request for a key carries the path that was signed, and a conforming server takes it as a
request for the object. -/
structure SentAsSigned : Prop where
  /-- The target is the path that was signed. -/
  target : requestTarget (operation.request hmac store time key) = encodedUri store key
  /-- It addresses the object. -/
  addressed : addressedPath (requestTarget (operation.request hmac store time key)) =
    objectPath store key
  /-- Nothing was cut on the way. -/
  uncut : Uncut hmac store time operation key
  /-- The authorization is the one that the server computes. -/
  accepted : ∃ request : WireRequest, request.text = operation.request hmac store time key ∧
    request.target = requestTarget (operation.request hmac store time key) ∧
    request.authorization =
      expectedAuthorization hmac store.region store.accessKey store.secretKey request

/-- No character of the path needs an escape, and the path, the host, the region and the key leave
the buffers room. -/
structure Sendable : Prop where
  /-- The path is its own encoding. -/
  kept : ∀ c ∈ objectPath store key, isKept c = true
  /-- The path fits. -/
  path : (objectPath store key).length < 2048
  /-- The host fits. -/
  host : (hostText store).length < 512
  /-- The scope fits. -/
  region : store.region.length ≤ 102
  /-- The first key fits. -/
  secret : store.secretKey.length < 252
  /-- The authorization fits. -/
  credential : store.accessKey.length + store.region.length < 332

/-- A path in its buffer. -/
theorem canonicalUri_length : (canonicalUri store key).length ≤ 2047 := by
  rw [canonicalUri, snprintf, List.length_take]
  omega

/-- A host in its buffer. -/
theorem hostHeader_length : (hostHeader store).length ≤ 511 := by
  rw [hostHeader, snprintf, List.length_take]
  omega

/-- A scope in its buffer. -/
theorem credentialScope_length : (credentialScope store time).length ≤ 127 := by
  rw [credentialScope, snprintf, List.length_take]
  omega

/-- A signature has 64 digits. -/
theorem signature_length (method contentSha256 : Bytes) :
    (signature hmac store time method key contentSha256).length = 64 := by
  rw [signature, hexEncode_length, hmac.width]

/-- The head of a request always fits. -/
theorem request_whole : operation.request hmac store time key =
    wireText operation.method (canonicalUri store key) (hostHeader store) time.datetime
      (cookbookSha256Hex operation.body)
      (authHeader hmac store time operation.method key (cookbookSha256Hex operation.body))
      operation.body.length := by
  refine snprintf_fits ?_
  have path := canonicalUri_length store key
  have host := hostHeader_length store
  have method := operation.method_plain.2
  have digits := decimalNat_length operation.body.length
  have authorization : (authHeader hmac store time operation.method key
      (cookbookSha256Hex operation.body)).length ≤ 511 := by
    rw [authHeader, snprintf, List.length_take]
    omega
  rw [wireText_length, time.datetime_length, cookbookSha256Hex_length]
  omega

/-- The target of a request is the path before its encoding, up to a blank in it. -/
theorem requestTarget_request : requestTarget (operation.request hmac store time key) =
    (canonicalUri store key).takeWhile (· != space) := by
  rw [request_whole, requestTarget_wireText operation.method_plain.1]

variable {store time operation key}

/-- A path whose target is its encoding needs no escape. -/
theorem kept_of_target
    (same : (canonicalUri store key).takeWhile (· != space) = encodedUri store key) :
    ∀ c ∈ canonicalUri store key, isKept c = true := by
  have path := canonicalUri_length store key
  have shorter : (encodedUri store key).length ≤ (canonicalUri store key).length :=
    same ▸ (List.takeWhile_sublist _).length_le
  rcases @uriEncodeLoop_cut 4096 (canonicalUri store key) 0 with whole | cut
  · refine (encodedPath_length _).2 ?_
    rw [← whole]
    exact shorter
  · change 4096 ≤ 0 + (encodedUri store key).length + 3 at cut
    omega

/-- A path of kept characters that fits is encoded as itself. -/
theorem Sendable.encodedUri (sendable : Sendable store key) :
    encodedUri store key = objectPath store key ∧ canonicalUri store key = objectPath store key := by
  have path := sendable.path
  have whole : canonicalUri store key = objectPath store key := snprintf_fits path
  refine ⟨?_, whole⟩
  have encoded := encodedPath_kept sendable.kept
  rw [Store.encodedUri, uriEncode, whole, uriEncodeLoop_whole, encoded]
  rw [encoded]
  omega

/-- Nothing is cut of a request that can be sent. -/
theorem Sendable.uncut (sendable : Sendable store key) : Uncut hmac store time operation key := by
  have path := sendable.path
  have host := hostHeader_length store
  have region := sendable.region
  have secret := sendable.secret
  have credential := sendable.credential
  have method := operation.method_plain.2
  have headers : (canonicalHeaders store time (cookbookSha256Hex operation.body)).length ≤ 2047 := by
    rw [canonicalHeaders, snprintf, List.length_take]
    omega
  have scopeShort := credentialScope_length store time
  have scope : credentialScope store time = scopeText time.date8 store.region := by
    refine snprintf_fits ?_
    rw [scopeText_length, time.eight]
    omega
  obtain ⟨encoded, whole⟩ := sendable.encodedUri
  constructor
  case path => exact whole
  case encoded => rw [encoded, whole, encodedPath_kept sendable.kept]
  case host => exact snprintf_fits sendable.host
  case headers =>
    refine snprintf_fits ?_
    rw [headersText_length, cookbookSha256Hex_length, time.datetime_length]
    omega
  case request =>
    refine snprintf_fits ?_
    rw [requestText_length, cookbookSha256Hex_length, encoded]
    omega
  case scope => exact scope
  case signed =>
    refine snprintf_fits ?_
    rw [signedText_length, cookbookSha256Hex_length, time.datetime_length]
    omega
  case secret =>
    refine snprintf_fits ?_
    rw [secretText, List.length_append, show (ascii "AWS4").length = 4 by decide]
    omega
  case credential =>
    refine snprintf_fits ?_
    rw [credentialText_length, signature_length, scope, scopeText_length, time.eight]
    omega
  case head => exact request_whole hmac store time operation key

/-- A path of kept characters addresses itself, and holds no blank. -/
theorem addressedPath_kept {path : Bytes} (kept : ∀ c ∈ path, isKept c = true) :
    addressedPath path = path ∧ path.takeWhile (· != space) = path := by
  have free : percent ∉ path := fun member => (kept_plain percent (kept percent member)).2.1 rfl
  constructor
  · have query : path.takeWhile (· != 0x3F) = path := List.takeWhile_eq_self_iff.mpr fun c member =>
      bne_iff_ne.mpr (kept_plain c (kept c member)).2.2
    rw [addressedPath, query]
    exact percentDecode_free fun a b _ _ inside => free (inside.subset (List.mem_cons_self ..))
  · exact List.takeWhile_eq_self_iff.mpr fun c member =>
      bne_iff_ne.mpr (kept_plain c (kept c member)).1

/-- The authorization of a request that can be sent is the one that the server computes. -/
theorem Sendable.accepted (sendable : Sendable store key) :
    ∃ request : WireRequest, request.text = operation.request hmac store time key ∧
      request.target = requestTarget (operation.request hmac store time key) ∧
      request.authorization =
        expectedAuthorization hmac store.region store.accessKey store.secretKey request := by
  have uncut := @Sendable.uncut hmac store time operation key sendable
  obtain ⟨encoded, whole⟩ := sendable.encodedUri
  refine ⟨⟨operation.method, canonicalUri store key, hostHeader store, time.datetime,
    cookbookSha256Hex operation.body,
    authHeader hmac store time operation.method key (cookbookSha256Hex operation.body),
    operation.body.length⟩, uncut.head.symm, ?_, ?_⟩
  · rw [requestTarget_request, whole, (addressedPath_kept sendable.kept).2]
  · rw [uncut.credential, signature, uncut.signed, uncut.request, uncut.headers, uncut.scope,
      deriveSigningKey, uncut.secret, expectedAuthorization]
    simp only [time.take_datetime, whole, encoded, (addressedPath_kept sendable.kept).1,
      encodedPath_kept sendable.kept]

end Sent

/-- The request for a key carries the path that was signed, addresses the object and is accepted,
with no text cut on the way, exactly if the path needs no escape and every text fits. -/
theorem request_sentAsSigned_iff (hmac : Hmac) (store : S3Store) (time : AwsTime)
    (operation : S3Operation) (key : Bytes) :
    SentAsSigned hmac store time operation key ↔ Sendable store key := by
  constructor
  · intro sent
    have path := (snprintf_eq_iff (by decide) _).mp sent.uncut.path
    have scope := (snprintf_eq_iff (by decide) _).mp sent.uncut.scope
    have secret := (snprintf_eq_iff (by decide) _).mp sent.uncut.secret
    have credential := (snprintf_eq_iff (by decide) _).mp sent.uncut.credential
    rw [sent.uncut.scope, credentialText_length, signature_length, scopeText_length,
      time.eight] at credential
    rw [scopeText_length, time.eight] at scope
    rw [secretText, List.length_append, show (ascii "AWS4").length = 4 by decide] at secret
    have kept := kept_of_target ((requestTarget_request hmac store time operation key).symm.trans
      sent.target)
    rw [sent.uncut.path] at kept
    exact ⟨kept, path, (snprintf_eq_iff (by decide) _).mp sent.uncut.host, by omega, by omega,
      by omega⟩
  · intro sendable
    obtain ⟨encoded, whole⟩ := sendable.encodedUri
    obtain ⟨addressed, blank⟩ := addressedPath_kept sendable.kept
    have target : requestTarget (operation.request hmac store time key) = objectPath store key := by
      rw [requestTarget_request, whole, blank]
    exact ⟨target.trans encoded.symm, by rw [target, addressed], sendable.uncut hmac,
      sendable.accepted hmac⟩

/-- A server with a store at another host. -/
def minioStore : S3Store :=
  cookbookStoreOpenS3 (ascii "packages") (ascii "eu-west-1") (ascii "AKIA") (ascii "secret")
    (ascii "minio:9000")

/-- The archive of a release is sent as it was signed. -/
theorem request_sentAsSigned_release :
    ∃ time, awsTimestamp 1700000000 = some time ∧ time.datetime = ascii "20231114T221320Z" ∧
      SentAsSigned programHmac minioStore time (.put (ascii "data"))
        (ascii "central/org/acme/core/1.0.0/core.tar.gz") := by
  refine ⟨_, rfl, by decide +kernel, ?_⟩
  exact (request_sentAsSigned_iff programHmac minioStore _ _ _).mpr
    ⟨by decide +kernel, by decide +kernel, by decide +kernel, by decide +kernel, by decide +kernel,
      by decide +kernel⟩

/-- The path of a version with build metadata is signed with an escape and sent without. -/
theorem request_losesPlus :
    ¬ ∃ hmac time, SentAsSigned hmac
      (cookbookStoreOpenS3 (ascii "packages") (ascii "eu-west-1") (ascii "AKIA") (ascii "secret")
        (ascii "minio:9000")) time .get (ascii "central/org/acme/core/1.0.0+b1/core.tar.gz") := by
  rintro ⟨hmac, time, sent⟩
  have kept := kept_of_target ((requestTarget_request ..).symm.trans sent.target) plus
    (by decide +kernel)
  exact absurd kept (by decide)

end Cookbook.Store
