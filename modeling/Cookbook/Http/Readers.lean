import Cookbook.Http.Response
import Cookbook.Library.Collect

/-!
# The readers of responses

`grid_recv_response` and `sock_recv_response` collect a response until a test of substrings holds, and
hand out what lies behind the head; over TLS the S3 store collects up to the end of the stream. What
they hand out is the decoded body exactly when they stop right behind it.
-/
namespace Cookbook.Http

open Library.Text Library.Collect

/-! ## The head of a buffer -/

/-- `hdr_end`, the end of the head, in a buffer that is read as a string. -/
def headerEnd (buf : Bytes) : Option Bytes := strstr (crlf ++ crlf) (cString buf)

/-- `hdr_len`, the length of the head. -/
def headerLength (buf : Bytes) : Option Nat :=
  (headerEnd buf).map fun found => (cString buf).length - found.length + 4

/-- `cl_str`, the text from the name of the length on. -/
def contentLengthText (buf : Bytes) : Option Bytes :=
  match strstr (ascii "Content-Length: ") (cString buf) with
  | some found => some found
  | none => strstr (ascii "content-length: ") (cString buf)

/-- The length behind its name, as a `size_t`. -/
def contentLength (found : Bytes) : Nat := (strtoll (found.drop 16) % 18446744073709551616).toNat

/-- The buffer holds a head and the length behind it. -/
def reachesLength (buf : Bytes) (hdrLen : Nat) (found : Bytes) : Bool :=
  decide ((hdrLen + contentLength found) % 18446744073709551616 ≤ buf.length)

/-- The status in a buffer. -/
def responseStatus (buf : Bytes) : Int :=
  if 12 < buf.length ∧ (ascii "HTTP/1.").isPrefixOf buf then atoi (buf.drop 9) else 0

/-- `response_body` -/
def responseBody (buf : Bytes) : Option Bytes := (headerLength buf).map buf.drop

/-! ## `grid_recv_response` -/

/-- The test of `grid_recv_response`. -/
def gridComplete (buf : Bytes) : Bool :=
  match headerLength buf, contentLengthText buf with
  | some hdrLen, some found => reachesLength buf hdrLen found
  | _, _ => false

/-- The buffer of `grid_recv_response` grows up to 4 MB. -/
def gridGrow : Growth := fun cap total =>
  if cap - 1 ≤ total then if 4 * 1024 * 1024 < cap * 2 then none else some (cap * 2) else some cap

/-- What `grid_recv_response` leaves. -/
structure GridReply where
  /-- `status` -/
  status : Int
  /-- The body, where there is one. -/
  body : Option Bytes

/-- `grid_recv_response` on the segments that arrive: none when the rounds are used up. -/
def gridRecvResponse (rounds : Nat) (segments : List Bytes) : Option GridReply :=
  (collect gridGrow gridComplete rounds 8192 [] segments).map fun buf =>
    ⟨responseStatus buf, responseBody buf⟩

/-- What `handle_artifact` sends on from a peer's reply. -/
def proxied (reply : GridReply) : Option Bytes := if reply.status = 200 then reply.body else none

/-! ## `s3_get` -/

/-- The test of `sock_recv_response`. -/
def s3Complete (buf : Bytes) : Bool :=
  match headerEnd buf, headerLength buf with
  | some found, some hdrLen =>
    match contentLengthText buf with
    | some field => reachesLength buf hdrLen field
    | none =>
      ((strstr (ascii "Transfer-Encoding: chunked") (cString buf)).isSome ||
          (strstr (ascii "transfer-encoding: chunked") (cString buf)).isSome) &&
        (strstr (crlf ++ ascii "0" ++ crlf) (found.drop 4)).isSome || buf.length == hdrLen
  | _, _ => false

/-- The buffer of `sock_recv_response` grows without a bound. -/
def s3Grow : Growth := fun cap total => some (if cap - 1 ≤ total then cap * 2 else cap)

/-- `sock_recv_response` -/
def sockRecvResponse (rounds : Nat) (segments : List Bytes) : Option (Bytes × Int) :=
  (collect s3Grow s3Complete rounds 65536 [] segments).map fun buf => (buf, responseStatus buf)

/-- The status in a buffer that `s3_do_request` has read over TLS. -/
def tlsStatus (buf : Bytes) : Int :=
  match strchr space (cString buf) with
  | some found => atoi (found.drop 1)
  | none => -1

/-- The response that `s3_do_request` reads over TLS: up to the end of the stream. -/
def tlsResponse (rounds : Nat) (records : List Bytes) : Option (Bytes × Int) :=
  (collect s3Grow (fun _ => false) rounds 65536 [] records).map fun buf => (buf, tlsStatus buf)

/-- What `s3_get` returns. -/
inductive StoreResult
  /-- `COOKBOOK_STORE_OK` with data. -/
  | ok (data : Bytes)
  /-- `COOKBOOK_STORE_NOT_FOUND` -/
  | notFound
  /-- `COOKBOOK_STORE_ERROR` -/
  | error

/-- `s3_get` behind its request. -/
def s3Get (useTls : Bool) (rounds : Nat) (segments : List Bytes) : Option StoreResult :=
  (if useTls then tlsResponse rounds segments else sockRecvResponse rounds segments).map
    fun resp =>
      if resp.2 = 404 then .notFound
      else if resp.2 ≠ 200 then .error
      else .ok ((responseBody resp.1).getD [])

/-! ## The three readers -/

/-- A reader of responses. -/
inductive HttpReader
  /-- A proxied request of the grid. -/
  | grid
  /-- The S3 store. -/
  | s3
  /-- The S3 store over TLS. -/
  | s3Tls
  deriving DecidableEq

namespace HttpReader

/-- The body that a reader hands out: none inside when it reports a failure. -/
def read : HttpReader → Nat → List Bytes → Option (Option Bytes)
  | grid, rounds, segments => (gridRecvResponse rounds segments).map proxied
  | s3, rounds, segments => (s3Get false rounds segments).map fun
    | .ok data => some data
    | _ => none
  | s3Tls, rounds, segments => (s3Get true rounds segments).map fun
    | .ok data => some data
    | _ => none

/-- The test of a reader. -/
def complete : HttpReader → Bytes → Bool
  | grid => gridComplete
  | s3 => s3Complete
  | s3Tls => fun _ => false

/-- How the buffer of a reader grows. -/
def grow : HttpReader → Growth
  | grid => gridGrow
  | s3 | s3Tls => s3Grow

/-- The first size of the buffer of a reader. -/
def cap : HttpReader → Nat
  | grid => 8192
  | s3 | s3Tls => 65536

/-- What the buffer of a reader holds after each call for the parts that arrive. -/
def arrivals (reader : HttpReader) (rounds : Nat) (segments : List Bytes) : List Bytes :=
  Library.Collect.arrivals reader.grow rounds reader.cap [] segments

/-- What the reader needs to see to report a success. -/
def visible (reader : HttpReader) (response : HttpResponse) : Nat :=
  match reader with
  | grid => response.head.length
  | s3 => 13
  | s3Tls => 12

/-- The reader reports a failure or hands out the decoded body. -/
def ReadsExactly (reader : HttpReader) (rounds : Nat) (response : HttpResponse)
    (segments : List Bytes) : Prop :=
  ∃ result, reader.read rounds segments = some result ∧
    ∀ body, result = some body → body = response.framing.decoded

/-- The status is not 200; or too little arrives for a success to be reported, or for any body while
the body is empty; or the reader stops right behind the head and the decoded body. -/
def StopsBehindBody (reader : HttpReader) (rounds : Nat) (response : HttpResponse)
    (segments : List Bytes) : Prop :=
  response.code ≠ 200 ∨
    (∀ point ∈ reader.arrivals rounds segments, point.length < reader.visible response) ∨
    (response.framing.decoded = [] ∧
      ∀ point ∈ reader.arrivals rounds segments, point.length < response.head.length) ∨
    StopsAt reader.complete (reader.arrivals rounds segments)
      (response.head ++ response.framing.decoded)

end HttpReader

/-! ## What a buffer shows -/

section Shown

variable {response : HttpResponse} {buf : Bytes}

/-- The head of a response is found with what lies behind it. -/
theorem headerEnd_head (rest : Bytes) :
    headerEnd (response.head ++ rest) = some (crlf ++ crlf ++ cString rest) := by
  have shown : ∀ c ∈ response.head, (c != 0) = true := by
    intro c member
    refine bne_iff_ne.mpr fun same => response.head_terminated ?_
    rw [← same]
    exact member
  have string : cString (response.head ++ rest) = response.head ++ cString rest :=
    List.takeWhile_append_of_pos shown
  rw [headerEnd, string, response.strstr_head]

/-- The length of the head of a response is found. -/
theorem headerLength_head (rest : Bytes) :
    headerLength (response.head ++ rest) = some response.head.length := by
  have shown : ∀ c ∈ response.head, (c != 0) = true := by
    intro c member
    refine bne_iff_ne.mpr fun same => response.head_terminated ?_
    rw [← same]
    exact member
  have string : cString (response.head ++ rest) = response.head ++ cString rest :=
    List.takeWhile_append_of_pos shown
  obtain ⟨front, ends⟩ := response.head_ends
  have four : (crlf ++ crlf).length = 4 := rfl
  have length := congrArg List.length ends
  rw [List.length_append, four] at length
  rw [headerLength, headerEnd_head, Option.map_some, string, List.length_append,
    List.length_append, four]
  congr 1
  omega

/-- In front of the end of the head no end of a head is found. -/
theorem headerEnd_short (inside : buf <+: response.head)
    (short : buf.length < response.head.length) : headerEnd buf = none := by
  obtain ⟨more, whole⟩ := inside
  have string : cString buf = buf := by
    refine cString_terminated fun member => response.head_terminated ?_
    rw [← whole]
    exact List.mem_append_left _ member
  rw [headerEnd, string, strstr_none_iff]
  rintro ⟨front, back, split⟩
  have again : response.head = front ++ (crlf ++ crlf ++ (back ++ more)) := by
    rw [← whole, ← split]
    simp only [List.append_assoc]
  obtain ⟨found, search, length⟩ := strstr_early (crlf ++ crlf) front (back ++ more)
  have first := response.strstr_head []
  rw [List.append_nil, List.append_nil, again, search] at first
  have same := congrArg List.length (Option.some.inj first)
  have total := congrArg List.length whole
  have rest : (back ++ more).length = back.length + more.length := List.length_append
  rw [List.length_append] at total length
  omega

/-- The line up to the status, and the blank behind it. -/
theorem bytes_status (response : HttpResponse) : ∃ rest, response.bytes =
    ascii "HTTP/1.1 " ++ response.status ++ space :: rest := by
  obtain ⟨rest, head⟩ := response.head_status
  exact ⟨rest ++ response.framing.encoded, by rw [HttpResponse.bytes, head]; simp⟩

/-- The head is longer than the status line up to the status. -/
theorem head_long (response : HttpResponse) : 13 ≤ response.head.length := by
  obtain ⟨rest, head⟩ := response.head_status
  have version : (ascii "HTTP/1.1 ").length = 9 := rfl
  rw [head, List.length_append, List.length_append, version, response.threeDigits.1,
    List.length_cons]
  omega

/-- The status has three digits. -/
theorem code_small : response.code < 1000 := by
  have bound := readDigits_lt response.status response.threeDigits.2
  rw [response.threeDigits.1] at bound
  exact bound

/-- The status digits are there. -/
theorem status_filled : response.status ≠ [] :=
  List.ne_nil_of_length_pos (by rw [response.threeDigits.1]; decide)

/-- A buffer of twelve bytes shows the status, and what follows is no digit. -/
theorem shown_status (inside : buf <+: response.bytes) (long : 12 ≤ buf.length) :
    ∃ more, buf = ascii "HTTP/1.1 " ++ (response.status ++ more) ∧
      ∀ c ∈ more.head?, isDecimal c = false := by
  obtain ⟨rest, whole⟩ := bytes_status response
  have version : (ascii "HTTP/1.1 ").length = 9 := rfl
  have line : (ascii "HTTP/1.1 " ++ response.status).length = 12 := by
    rw [List.length_append, version, response.threeDigits.1]
  have front : ascii "HTTP/1.1 " ++ response.status <+: response.bytes := by
    rw [whole]
    exact List.prefix_append _ _
  obtain ⟨more, split⟩ := List.prefix_of_prefix_length_le front inside (by omega)
  refine ⟨more, by rw [← split, List.append_assoc], ?_⟩
  obtain ⟨later, complete⟩ := inside
  rw [← split, whole, List.append_assoc] at complete
  have behind := List.append_cancel_left complete
  cases more with
  | nil => nofun
  | cons c more =>
    have first := (List.cons.inj behind).1
    intro other member
    cases member
    rw [first]
    decide

/-- `atoi` reads the status. -/
theorem atoi_status {more : Bytes} (ends : ∀ c ∈ more.head?, isDecimal c = false) :
    atoi (response.status ++ more) = response.code :=
  atoi_digits status_filled response.threeDigits.2 (code_small.trans (by decide)) ends

/-- A buffer of more than twelve bytes gives the status. -/
theorem responseStatus_shown (inside : buf <+: response.bytes) (long : 12 < buf.length) :
    responseStatus buf = response.code := by
  obtain ⟨more, split, ends⟩ := shown_status inside (by omega)
  have version : (ascii "HTTP/1.").isPrefixOf buf = true := by
    rw [split, List.isPrefixOf_iff_prefix]
    exact ⟨ascii "1 " ++ (response.status ++ more), rfl⟩
  have digits : buf.drop 9 = response.status ++ more := by
    rw [split]
    rfl
  rw [responseStatus, if_pos ⟨long, version⟩, digits, atoi_status ends]

/-- A shorter one does not. -/
theorem responseStatus_short (short : buf.length < 13) : responseStatus buf = 0 :=
  if_neg fun both => absurd both.1 (by omega)

/-- Over TLS a buffer of twelve bytes gives the status. -/
theorem tlsStatus_shown (inside : buf <+: response.bytes) (long : 12 ≤ buf.length) :
    tlsStatus buf = response.code := by
  obtain ⟨more, split, ends⟩ := shown_status inside long
  have shown : ∀ c ∈ ascii "HTTP/1.1" ++ space :: response.status, (c != 0) = true := by
    intro c member
    rcases List.mem_append.mp member with version | rest
    · have all : ∀ c ∈ ascii "HTTP/1.1", (c != 0) = true := by decide +kernel
      exact all c version
    · rcases List.mem_cons.mp rest with blank | digit
      · rw [blank]
        rfl
      · exact bne_iff_ne.mpr (HttpResponse.decimal_line c (response.threeDigits.2 c digit)).1
  have shape : buf = ascii "HTTP/1.1" ++ space :: response.status ++ more := by
    rw [split, List.append_assoc]
    rfl
  have string : cString buf = ascii "HTTP/1.1" ++ space :: (response.status ++ cString more) := by
    rw [shape, cString, List.takeWhile_append_of_pos shown, List.append_assoc]
    rfl
  have free : space ∉ ascii "HTTP/1.1" := by decide +kernel
  have cut : ∀ c ∈ (cString more).head?, isDecimal c = false := by
    cases more with
    | nil => nofun
    | cons first later =>
      intro c member
      unfold cString at member
      rw [List.takeWhile_cons] at member
      split at member
      · cases member
        exact ends first rfl
      · cases member
  unfold tlsStatus
  rw [string, strchr_stop _ free]
  exact atoi_status cut

/-- Over TLS a shorter one gives no status of three digits. -/
theorem tlsStatus_short (inside : buf <+: response.bytes) (short : buf.length < 12) :
    tlsStatus buf < 100 := by
  obtain ⟨rest, whole⟩ := bytes_status response
  have version : (ascii "HTTP/1.1 ").length = 9 := rfl
  rw [whole, List.append_assoc] at inside
  by_cases named : buf.length < 9
  · -- The blank behind the version has not come.
    have front : buf <+: ascii "HTTP/1.1" := by
      have eight : ascii "HTTP/1.1" <+: ascii "HTTP/1.1 " ++ (response.status ++ space :: rest) :=
        ⟨space :: (response.status ++ space :: rest), rfl⟩
      refine List.prefix_of_prefix_length_le inside eight ?_
      have length : (ascii "HTTP/1.1").length = 8 := rfl
      omega
    have free : space ∉ cString buf := by
      intro member
      have letters : space ∉ ascii "HTTP/1.1" := by decide +kernel
      exact letters (front.subset ((List.takeWhile_prefix _).subset member))
    rw [tlsStatus, strchr_none free]
    decide
  · have start : ascii "HTTP/1.1 " <+: buf :=
      List.prefix_of_prefix_length_le (List.prefix_append _ _) inside (by omega)
    obtain ⟨digits, split⟩ := start
    have total := congrArg List.length split
    rw [List.length_append] at total
    have some_digits : digits <+: response.status := by
      rw [← split, List.prefix_append_right_inj] at inside
      refine List.prefix_of_prefix_length_le inside (List.prefix_append _ _) ?_
      rw [response.threeDigits.1]
      omega
    have decimals : ∀ c ∈ digits, isDecimal c = true := fun c member =>
      response.threeDigits.2 c (some_digits.subset member)
    have string : cString buf = ascii "HTTP/1.1" ++ space :: digits := by
      rw [← split]
      refine cString_terminated fun member => ?_
      rcases List.mem_append.mp member with letters | digit
      · have none : (0 : UInt8) ∉ ascii "HTTP/1.1 " := by decide +kernel
        exact none letters
      · exact (HttpResponse.decimal_line 0 (decimals 0 digit)).1 rfl
    have free : space ∉ ascii "HTTP/1.1" := by decide +kernel
    unfold tlsStatus
    rw [string, strchr_stop _ free]
    show atoi digits < 100
    by_cases empty : digits = []
    · rw [empty]
      decide
    · have bound := readDigits_lt digits decimals
      have power : Nat.pow 10 digits.length ≤ 100 :=
        Nat.pow_le_pow_right (by omega : 0 < 10) (by omega : digits.length ≤ 2)
      have value : atoi (digits ++ []) = readDigits digits :=
        atoi_digits empty decimals (by omega) nofun
      rw [List.append_nil] at value
      rw [value]
      omega

end Shown

/-! ## One buffer -/

/-- What a reader hands out of the buffer that it ends with. -/
def HttpReader.result (reader : HttpReader) (buf : Bytes) : Option Bytes :=
  match reader with
  | .grid => proxied ⟨responseStatus buf, responseBody buf⟩
  | .s3 => if responseStatus buf = 200 then some ((responseBody buf).getD []) else none
  | .s3Tls => if tlsStatus buf = 200 then some ((responseBody buf).getD []) else none

/-- A reader hands out a part of its last buffer. -/
theorem HttpReader.read_result (reader : HttpReader) (rounds : Nat) (segments : List Bytes) :
    reader.read rounds segments =
      (collect reader.grow reader.complete rounds reader.cap [] segments).map reader.result := by
  have kept : ∀ (status : Int) (buf : Bytes),
      (match (if status = 404 then StoreResult.notFound else if status ≠ 200 then .error
        else .ok ((responseBody buf).getD [])) with
      | .ok data => some data
      | _ => none) = if status = 200 then some ((responseBody buf).getD []) else none := by
    intro status buf
    by_cases good : status = 200
    · rw [good, if_pos rfl, if_neg (by decide), if_neg (by decide)]
    · rw [if_neg good]
      split_ifs <;> rfl
  cases reader with
  | grid =>
    simp only [HttpReader.read, gridRecvResponse, Option.map_map]
    rfl
  | s3 =>
    simp only [HttpReader.read, s3Get, sockRecvResponse, Option.map_map, Bool.false_eq_true,
      if_false]
    congr 1
    funext buf
    exact kept (responseStatus buf) buf
  | s3Tls =>
    simp only [HttpReader.read, s3Get, tlsResponse, Option.map_map, if_true]
    congr 1
    funext buf
    exact kept (tlsStatus buf) buf

/-- The body behind the head of a response. -/
theorem responseBody_head {response : HttpResponse} {buf : Bytes} (inside : buf <+: response.bytes) :
    responseBody buf =
      if buf.length < response.head.length then none
      else some (buf.drop response.head.length) := by
  have front : response.head <+: response.bytes := List.prefix_append _ _
  split
  · rename_i short
    have part := List.prefix_of_prefix_length_le inside front (by omega)
    rw [responseBody, headerLength, headerEnd_short part short]
    rfl
  · rename_i long
    obtain ⟨rest, split⟩ := List.prefix_of_prefix_length_le front inside (by omega)
    rw [← split, responseBody, headerLength_head]
    rfl

/-- With a part of a response as its last buffer a reader fails or hands out the decoded body exactly
when the status is not 200, it does not see enough, or the decoded body is what lies behind the
head. -/
theorem HttpReader.result_iff (reader : HttpReader) {response : HttpResponse} {buf : Bytes}
    (inside : buf <+: response.bytes) :
    (∀ body, reader.result buf = some body → body = response.framing.decoded) ↔
      response.code ≠ 200 ∨ buf.length < reader.visible response ∨
        buf.drop response.head.length = response.framing.decoded := by
  have body := responseBody_head inside
  have long := head_long response
  have handed : (responseBody buf).getD [] = buf.drop response.head.length := by
    rw [body]
    split
    · exact (List.drop_eq_nil_of_le (by omega)).symm
    · rfl
  have status : ∀ {code : Int}, code = response.code →
      (code = 200 ↔ response.code = 200) := by
    intro code same
    rw [same]
    omega
  -- What the two readers of the S3 store hand out once they see the status.
  have stored : ∀ (code : Int) (seen : Nat), (seen ≤ buf.length → code = response.code) →
      (buf.length < seen → code ≠ 200) →
      ((∀ found, (if code = 200 then some ((responseBody buf).getD []) else none) = some found →
        found = response.framing.decoded) ↔
        response.code ≠ 200 ∨ buf.length < seen ∨
          buf.drop response.head.length = response.framing.decoded) := by
    intro code seen shown hidden
    by_cases short : buf.length < seen
    · rw [if_neg (hidden short)]
      exact iff_of_true nofun (.inr (.inl short))
    · have same := status (shown (by omega))
      by_cases good : code = 200
      · rw [if_pos good, handed]
        have right := same.mp good
        constructor
        · exact fun all => .inr (.inr (all _ rfl))
        · rintro (wrong | few | equal) found given
          · exact absurd right wrong
          · exact absurd few short
          · exact (Option.some.inj given).symm.trans equal
      · rw [if_neg good]
        have wrong : response.code ≠ 200 := fun right => good (same.mpr right)
        exact iff_of_true nofun (.inl wrong)
  cases reader with
  | grid =>
    show (∀ found, proxied ⟨responseStatus buf, responseBody buf⟩ = some found → _) ↔
      _ ∨ buf.length < response.head.length ∨ _
    rw [body]
    by_cases short : buf.length < response.head.length
    · rw [if_pos short]
      refine iff_of_true ?_ (.inr (.inl short))
      intro found given
      unfold proxied at given
      split at given <;> cases given
    · rw [if_neg short]
      have same := status (responseStatus_shown inside (by omega))
      unfold proxied
      dsimp only
      by_cases good : responseStatus buf = 200
      · rw [if_pos good]
        have right := same.mp good
        constructor
        · exact fun all => .inr (.inr (all _ rfl))
        · rintro (wrong | few | equal) found given
          · exact absurd right wrong
          · exact absurd few short
          · exact (Option.some.inj given).symm.trans equal
      · rw [if_neg good]
        have wrong : response.code ≠ 200 := fun right => good (same.mpr right)
        exact iff_of_true nofun (.inl wrong)
  | s3 =>
    refine stored (responseStatus buf) 13 ?_ ?_
    · exact fun seen => responseStatus_shown inside seen
    · intro few
      rw [responseStatus_short few]
      decide
  | s3Tls =>
    refine stored (tlsStatus buf) 12 ?_ ?_
    · exact fun seen => tlsStatus_shown inside seen
    · intro few
      have small := tlsStatus_short inside few
      omega

/-! ## The arrivals -/

/-- The buffers of the readers leave room for what arrives. -/
theorem HttpReader.grow_roomy (reader : HttpReader) : reader.grow.Roomy := by
  intro cap total larger inside grown
  cases reader with
  | grid =>
    unfold HttpReader.grow gridGrow at grown
    dsimp only at grown
    split at grown
    · split at grown
      · cases grown
      · cases grown
        omega
    · cases grown
      omega
  | s3 | s3Tls =>
    unfold HttpReader.grow s3Grow at grown
    dsimp only at grown
    split at grown <;> cases grown <;> omega

/-- A complete buffer shows the head. -/
theorem HttpReader.complete_head (reader : HttpReader) {response : HttpResponse} {buf : Bytes}
    (inside : buf <+: response.bytes) (complete : reader.complete buf = true) :
    response.head.length ≤ buf.length := by
  by_contra long
  have front : response.head <+: response.bytes := List.prefix_append _ _
  have part := List.prefix_of_prefix_length_le inside front (by omega)
  have nothing := headerEnd_short part (by omega)
  cases reader with
  | grid => simp [HttpReader.complete, gridComplete, headerLength, nothing] at complete
  | s3 => simp [HttpReader.complete, s3Complete, nothing] at complete
  | s3Tls => cases complete

/-- The last buffer is shorter than a part of the head exactly when all arrivals are. -/
theorem HttpReader.short_iff (reader : HttpReader) (rounds : Nat) {response : HttpResponse}
    {segments : List Bytes} (early : segments.flatten <+: response.bytes) {seen : Nat}
    (few : 0 < seen) (part : seen ≤ response.head.length) :
    (firstComplete reader.complete [] (reader.arrivals rounds segments)).length < seen ↔
      ∀ point ∈ reader.arrivals rounds segments, point.length < seen := by
  have start : ([] : Bytes).length < reader.cap := by cases reader <;> decide
  unfold firstComplete
  cases found : (reader.arrivals rounds segments).find? reader.complete with
  | some point =>
    have member := List.mem_of_find?_eq_some found
    have complete := List.find?_some found
    have inside := (( arrivals_prefix reader.grow_roomy start point member).2).trans early
    have long := reader.complete_head inside complete
    rw [Option.getD_some]
    refine iff_of_false (by omega) ?_
    intro all
    have short := all point member
    omega
  | none =>
    rw [Option.getD_none]
    constructor
    · intro short point member
      have last := arrivals_le_last reader.grow_roomy start point member
      unfold HttpReader.arrivals at short member
      omega
    · intro all
      cases points : reader.arrivals rounds segments with
      | nil => exact few
      | cons first others =>
        refine all _ ?_
        rw [points, List.getLastD_cons]
        exact List.getLastD_mem_cons

/-- A reader fails or hands out exactly the decoded body when the status is not 200, when too little
arrives for a success or for any body, and when it stops right behind the decoded body; and in no
other case. -/
theorem httpReader_readsExactly_iff (reader : HttpReader) (response : HttpResponse)
    {segments : List Bytes} (early : segments.flatten <+: response.bytes) {rounds : Nat}
    (enough : segments.flatten.length < rounds) :
    reader.ReadsExactly rounds response segments ↔
      reader.StopsBehindBody rounds response segments := by
  have start : ([] : Bytes).length < reader.cap := by cases reader <;> decide
  have ends := collect_arrivals reader.grow_roomy reader.complete start enough
  have head := head_long response
  have visible : 0 < reader.visible response ∧ reader.visible response ≤ response.head.length := by
    cases reader <;> simp only [HttpReader.visible] <;> omega
  generalize last : firstComplete reader.complete []
    (Library.Collect.arrivals reader.grow rounds reader.cap [] segments) = buf at ends
  have where_ := (firstComplete_eq_iff _ _ _ _).mp last
  have inside : buf <+: response.bytes := by
    rcases where_ with ⟨before, after, split, -⟩ | ⟨-, same⟩
    · have member : buf ∈ Library.Collect.arrivals reader.grow rounds reader.cap [] segments := by
        rw [split]
        exact List.mem_append_right _ List.mem_cons_self
      exact (( arrivals_prefix reader.grow_roomy start buf member).2).trans early
    · rw [← same]
      exact List.nil_prefix
  have short := reader.short_iff rounds early visible.1 visible.2
  have headless := reader.short_iff rounds early (by omega)
    (Nat.le_refl response.head.length)
  unfold HttpReader.arrivals at short headless
  rw [last] at short headless
  unfold HttpReader.ReadsExactly HttpReader.StopsBehindBody HttpReader.arrivals
  rw [reader.read_result, ends, ← short, ← headless, Option.map_some]
  have one : (∃ result, some (reader.result buf) = some result ∧
      ∀ body, result = some body → body = response.framing.decoded) ↔
        ∀ body, reader.result buf = some body → body = response.framing.decoded := by
    constructor
    · rintro ⟨result, same, all⟩
      rwa [Option.some.inj same]
    · exact fun all => ⟨_, rfl, all⟩
  -- Where the decoded body lies behind the head.
  have behind : buf.drop response.head.length = response.framing.decoded ↔
      response.framing.decoded = [] ∧ buf.length < response.head.length ∨
        StopsAt reader.complete
          (Library.Collect.arrivals reader.grow rounds reader.cap [] segments)
          (response.head ++ response.framing.decoded) := by
    have front : response.head <+: response.bytes := List.prefix_append _ _
    constructor
    · intro same
      by_cases few : buf.length < response.head.length
      · rw [List.drop_eq_nil_of_le (by omega)] at same
        exact .inl ⟨same.symm, few⟩
      · obtain ⟨rest, split⟩ := List.prefix_of_prefix_length_le front inside (by omega)
        rw [← split, List.drop_left] at same
        rw [← same, split]
        rcases where_ with stops | ⟨-, empty⟩
        · exact .inr stops
        · rw [← empty, List.length_nil] at few
          omega
    · rintro (⟨empty, few⟩ | stops)
      · rw [List.drop_eq_nil_of_le (by omega), empty]
      · have same : buf = response.head ++ response.framing.decoded := by
          rw [← last]
          exact (firstComplete_eq_iff _ _ _ _).mpr (.inl stops)
        rw [same, List.drop_left]
  rw [one, reader.result_iff inside, behind]

/-! ## Two responses -/

/-- A field with a blank in front of its value. -/
def plainField (name value : String)
    (named : ascii name ≠ [] ∧ ∀ c ∈ ascii name, isTokenChar c = true)
    (texted : ∀ c ∈ ascii value, isTextChar c = true) : Field :=
  ⟨ascii name, [space], ascii value, [], named, by decide +kernel, texted⟩

/-- A body of three bytes with its length. -/
def threeBytes : HttpResponse where
  status := ascii "200"
  reason := ascii "OK"
  fields := [plainField "Content-Length" "3" (by decide +kernel) (by decide +kernel)]
  framing := .length (ascii "abc")
  threeDigits := by decide +kernel
  texted := by decide +kernel
  declared := by
    refine ⟨⟨_, List.mem_singleton.mpr rfl, rfl⟩, ?_, ?_⟩
    · intro field member _
      rw [List.mem_singleton.mp member]
      decide +kernel
    · intro field member
      rw [List.mem_singleton.mp member]
      decide +kernel

/-- The same body in two chunks. -/
def twoChunks : HttpResponse where
  status := ascii "200"
  reason := ascii "OK"
  fields := [plainField "Transfer-Encoding" "chunked" (by decide +kernel) (by decide +kernel)]
  framing := .chunked
    [⟨ascii "2", [], ascii "ab", by decide +kernel, by decide +kernel⟩,
      ⟨ascii "1", [], ascii "c", by decide +kernel, by decide +kernel⟩]
    ⟨ascii "0", [], [], by decide +kernel, by decide +kernel⟩
  threeDigits := by decide +kernel
  texted := by decide +kernel
  declared := by
    refine ⟨⟨_, List.mem_singleton.mpr rfl, rfl⟩, ?_, ?_⟩
    · intro field member _
      rw [List.mem_singleton.mp member]
      decide +kernel
    · intro field member
      rw [List.mem_singleton.mp member]
      decide +kernel

/-- The body in two segments is handed out whole. -/
theorem httpReader_readsExactly_threeBytes :
    HttpReader.grid.ReadsExactly 100 threeBytes [threeBytes.head ++ ascii "a", ascii "bc"] := by
  refine (httpReader_readsExactly_iff .grid threeBytes ⟨[], by decide⟩ (by decide)).mpr ?_
  exact .inr (.inr (.inr ⟨[threeBytes.head ++ ascii "a"], [], by decide +kernel,
    by decide +kernel, .inr rfl⟩))

/-- A connection that is closed behind one byte of three is a success with one byte, and a chunked
response is handed out as it is sent. -/
theorem httpReader_truncates :
    [threeBytes.head ++ ascii "a"].flatten <+: threeBytes.bytes ∧
      ¬HttpReader.grid.ReadsExactly 100 threeBytes [threeBytes.head ++ ascii "a"] ∧
      ¬HttpReader.s3.ReadsExactly 100 twoChunks [twoChunks.bytes] := by
  refine ⟨⟨ascii "bc", by decide⟩, ?_, ?_⟩
  · rintro ⟨result, read, all⟩
    have handed : HttpReader.grid.read 100 [threeBytes.head ++ ascii "a"] =
        some (some (ascii "a")) := by
      decide +kernel
    rw [handed] at read
    exact absurd (all _ (Option.some.inj read).symm) (by decide)
  · rintro ⟨result, read, all⟩
    have handed : HttpReader.s3.read 100 [twoChunks.bytes] =
        some (some twoChunks.framing.encoded) := by
      decide +kernel
    rw [handed] at read
    exact absurd (all _ (Option.some.inj read).symm) (by decide)

end Cookbook.Http
