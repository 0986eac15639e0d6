import Cookbook.Library.Scanning
import Cookbook.Pasta.Parser
import Cookbook.Policy.Check
import Cookbook.Server.Device

/-!
# The scans of request bodies

A body is read into a buffer of its own size, and the handlers search the buffer with the string
functions of C. Here their scans run on the memory itself: the body and whatever lies behind it. What
a handler makes of a body depends on the body alone exactly when every search ends inside it.
-/
namespace Cookbook.Server

open Library.Text

/-! ## One field -/

/-- `"name":` -/
def memberKey (name : Bytes) : Bytes := quote :: (name ++ [quote, colon])

/-- `"name":"` -/
def textKey (name : Bytes) : Bytes := memberKey name ++ [quote]

/-- What a scan finds of a field. -/
inductive Scanned
  /-- The key is missing. -/
  | absent
  /-- The value is no text. -/
  | bare
  /-- The text has no closing quote. -/
  | unclosed
  /-- A text. -/
  | value (text : Bytes)
  deriving DecidableEq

/-- The field as it is copied to an empty buffer. -/
def Scanned.text (size : Nat) : Scanned → Bytes
  | value text => text.take (size - 1)
  | absent | bare | unclosed => []

/-- A text from behind its opening quote. -/
def quotedAt (p : Bytes) : Outcome Scanned :=
  (findChr quote p).bind fun found =>
    match found with
    | none => .done .unclosed
    | some _ => .done (.value (p.takeWhile (· != quote)))

/-- A text behind blanks. -/
def behindBlanks (p : Bytes) : Outcome Scanned :=
  (skipWhile Policy.isBlank p).bind fun p =>
    if p.head? = some quote then quotedAt (p.drop 1) else .done .bare

/-- A text behind the next colon. -/
def behindColon (p : Bytes) : Outcome Scanned :=
  (findChr colon p).bind fun found =>
    match found with
    | none => .done .absent
    | some p => behindBlanks (p.drop 1)

/-- A field that is searched with its opening quote. -/
def tightField (name : Bytes) : Bytes → Outcome Scanned :=
  behindStr (textKey name) .absent quotedAt

/-- A field with blanks in front of its text. -/
def looseField (name : Bytes) : Bytes → Outcome Scanned :=
  behindStr (memberKey name) .absent behindBlanks

/-- A field from the colon of its key on; the second key is tried where the first one is missing. -/
def colonField (keys : List Bytes) (body : Bytes) : Outcome Scanned :=
  match keys with
  | [] => .done .absent
  | key :: keys =>
    (findStr key body).bind fun found =>
      match found with
      | some p => behindColon p
      | none => colonField keys body

/-! ## The handlers -/

/-- The handlers that search their body as a text. -/
inductive BodyHandler
  /-- `POST /auth/token`, without a Basic header -/
  | authToken
  /-- `POST /auth/revoke` -/
  | authRevoke
  /-- `POST /auth/device/token` -/
  | authDeviceToken
  /-- `POST /auth/device/verify` -/
  | authDeviceVerify
  /-- `POST /keys` -/
  | keys
  /-- `PUT /admin/groups` -/
  | groupPut
  /-- `PATCH /admin/groups/{group_id}` -/
  | groupPatch
  /-- `PUT /admin/credentials` -/
  | credentialPut
  /-- `PUT /admin/peers` -/
  | peerPut
  /-- `PUT /admin/policies/{subject}` -/
  | policyPut
  /-- `POST /artifact/.../yank` -/
  | yank
  deriving DecidableEq

/-- What a handler takes from its body. -/
inductive BodyFields
  /-- `sub`, `groups`, `method`, `grant_type`, `client_secret` and `body_token` -/
  | authToken (sub groups method grantType clientSecret bodyToken : Bytes)
  /-- `token_str`, or the reason why there is none -/
  | authRevoke (token : Scanned)
  /-- `dc` -/
  | authDeviceToken (dc : Bytes)
  /-- `user_code`, `subject` and `token` -/
  | authDeviceVerify (userCode subject token : Bytes)
  /-- `key_id`, `group_id`, `public_key` and `comment` -/
  | keys (keyId groupId publicKey comment : Bytes)
  /-- `gid` and `desc` -/
  | groupPut (gid desc : Bytes)
  /-- `new_owner` with `has_owner` and `new_desc` with `has_desc` -/
  | groupPatch (owner desc : Scanned)
  /-- `cred_sub`, `token` and `groups` -/
  | credentialPut (credSub token groups : Bytes)
  /-- `peer_id`, `name`, `url`, `mode`, `public_key` and `priority` -/
  | peerPut (peerId name url mode publicKey : Bytes) (priority : Int)
  /-- The stored pastlet, none when the body is no Pasta. -/
  | policyPut (pastlet : Option Bytes)
  /-- `reason` -/
  | yank (reason : Bytes)
  deriving DecidableEq

namespace BodyHandler

/-- The longest body that the handler reads. -/
def maxBytes : BodyHandler → Nat
  | authRevoke => 16384
  | policyPut => 65536
  | authToken | authDeviceToken | authDeviceVerify | keys | groupPut | groupPatch | credentialPut
  | peerPut | yank => 4096

end BodyHandler

/-- `client_id` stands in for a missing `sub`. -/
def clientId (sub body : Bytes) : Outcome Bytes :=
  (findStr (memberKey (ascii "client_id")) body).bind fun found =>
    match found with
    | none => .done sub
    | some p =>
      if sub = [] then (behindColon p).bind fun value => .done (value.text 128) else .done sub

/-- The token is searched for when there is a subject. -/
def bodyToken (sub body : Bytes) : Outcome Bytes :=
  if sub = [] then .done []
  else (colonField [memberKey (ascii "token")] body).bind fun value => .done (value.text 512)

/-- The method, `token` where none is named. -/
def methodText : Scanned → Bytes
  | .value text => text.take 31
  | .absent | .bare | .unclosed => ascii "token"

/-- The body of `handle_auth_token`. -/
def scanAuthToken (body : Bytes) : Outcome BodyFields :=
  (colonField [memberKey (ascii "sub"), memberKey (ascii "subject")] body).bind fun sub =>
  (looseField (ascii "groups") body).bind fun groups =>
  (colonField [memberKey (ascii "method")] body).bind fun method =>
  (colonField [memberKey (ascii "grant_type")] body).bind fun grantType =>
  (colonField [memberKey (ascii "client_secret")] body).bind fun clientSecret =>
  (clientId (sub.text 128) body).bind fun sub =>
  (bodyToken sub body).bind fun token =>
    .done (.authToken sub (groups.text 1024) (methodText method) (grantType.text 64)
      (clientSecret.text 512) token)

/-- The body of `handle_auth_device_verify`. -/
def scanDeviceVerify (body : Bytes) : Outcome BodyFields :=
  (tightField (ascii "user_code") body).bind fun userCode =>
  (colonField [textKey (ascii "subject"), textKey (ascii "sub")] body).bind fun subject =>
  (tightField (ascii "token") body).bind fun token =>
    .done (.authDeviceVerify (userCode.text 16) (subject.text 128) (token.text 512))

/-- The body of a key registration. -/
def scanKeys (body : Bytes) : Outcome BodyFields :=
  (tightField (ascii "key_id") body).bind fun keyId =>
  (tightField (ascii "group_id") body).bind fun groupId =>
  (tightField (ascii "public_key") body).bind fun publicKey =>
  (tightField (ascii "comment") body).bind fun comment =>
    .done (.keys (keyId.text 128) (groupId.text 128) (publicKey.text 256) (comment.text 256))

/-- The body of a new group. -/
def scanGroupPut (body : Bytes) : Outcome BodyFields :=
  (tightField (ascii "group_id") body).bind fun gid =>
  (tightField (ascii "description") body).bind fun desc =>
    .done (.groupPut (gid.text 256) (desc.text 512))

/-- A field that is changed only where the body names it. -/
def Scanned.cut (size : Nat) : Scanned → Scanned
  | value text => value (text.take (size - 1))
  | absent => absent
  | bare => bare
  | unclosed => unclosed

/-- The body of a change to a group. -/
def scanGroupPatch (body : Bytes) : Outcome BodyFields :=
  (tightField (ascii "owner") body).bind fun owner =>
  (tightField (ascii "description") body).bind fun desc =>
    .done (.groupPatch (owner.cut 128) (desc.cut 512))

/-- The body of a credential. -/
def scanCredentialPut (body : Bytes) : Outcome BodyFields :=
  (tightField (ascii "subject") body).bind fun credSub =>
  (tightField (ascii "token") body).bind fun token =>
  (tightField (ascii "groups") body).bind fun groups =>
    .done (.credentialPut (credSub.text 128) (token.text 512) (groups.text 1024))

/-- The body of a peer. -/
def scanPeerPut (body : Bytes) : Outcome BodyFields :=
  (looseField (ascii "peer_id") body).bind fun peerId =>
  (looseField (ascii "name") body).bind fun name =>
  (looseField (ascii "url") body).bind fun url =>
  (looseField (ascii "mode") body).bind fun mode =>
  (looseField (ascii "public_key") body).bind fun publicKey =>
  (behindStr (memberKey (ascii "priority")) 100 readNumber body).bind fun priority =>
    .done (.peerPut (peerId.text 128) (name.text 128) (url.text 512) (mode.text 16)
      (publicKey.text 128) priority)

/-- The body of a policy: the parser keeps to the length of the body, the database does not. -/
def scanPolicyPut (bodyLen : Nat) (body : Bytes) : Outcome BodyFields :=
  match Pasta.parse (body.take bodyLen) with
  | .error _ => .done (.policyPut none)
  | .ok _ => (readString body).bind fun pastlet => .done (.policyPut (some pastlet))

/-- What a handler takes from the memory that starts with a body of this length. -/
def BodyHandler.scan (handler : BodyHandler) (bodyLen : Nat) : Bytes → Outcome BodyFields :=
  match handler with
  | authToken => scanAuthToken
  | authRevoke => fun body =>
    (tightField (ascii "token") body).bind fun token => .done (.authRevoke token)
  | authDeviceToken => fun body =>
    (tightField (ascii "device_code") body).bind fun dc => .done (.authDeviceToken (dc.text 64))
  | authDeviceVerify => scanDeviceVerify
  | keys => scanKeys
  | groupPut => scanGroupPut
  | groupPatch => scanGroupPatch
  | credentialPut => scanCredentialPut
  | peerPut => scanPeerPut
  | policyPut => scanPolicyPut bodyLen
  | yank => fun body =>
    (looseField (ascii "reason") body).bind fun reason => .done (.yank (reason.text 256))

/-- What the handler takes from a body is the same whatever lies behind it in memory. -/
def BodyHandler.Independent (handler : BodyHandler) (body : Bytes) : Prop :=
  ∃ fields, ∀ behind, handler.scan body.length (body ++ behind) = .done fields

/-! ## Where the searches end -/

/-- A text behind blanks ends: there is something behind the blanks, and an opening quote has a
closing one. -/
def BlanksInside (p : Bytes) : Prop :=
  p.dropWhile Policy.isBlank ≠ [] ∧ ((p.dropWhile Policy.isBlank).head? = some quote →
    quote ∈ (p.dropWhile Policy.isBlank).drop 1)

/-- A field that is searched with its opening quote is there, with its closing quote. -/
def TightInside (name : Bytes) : Bytes → Prop := BehindStr (textKey name) fun p => quote ∈ p

/-- A field with blanks in front of its value is there, with the end of its value. -/
def LooseInside (name : Bytes) : Bytes → Prop := BehindStr (memberKey name) BlanksInside

/-- The text of a field in a body without a terminator. -/
def looseText (name body : Bytes) : Bytes :=
  match strstr (memberKey name) body with
  | none => []
  | some p =>
    let value := (p.drop (memberKey name).length).dropWhile Policy.isBlank
    if value.head? = some quote then (value.drop 1).takeWhile (· != quote) else []

/-- Every search of a handler ends inside a body without a terminator. -/
def BodyHandler.Inside (handler : BodyHandler) (body : Bytes) : Prop :=
  match handler with
  | authToken =>
    (∀ name ∈ [ascii "sub", ascii "groups", ascii "method", ascii "grant_type",
      ascii "client_secret"], LooseInside name body) ∧
    BehindStr (memberKey (ascii "client_id")) (fun _ => True) body ∧
    (looseText (ascii "sub") body = [] → LooseInside (ascii "client_id") body) ∧
    (looseText (ascii "sub") body ≠ [] ∨ looseText (ascii "client_id") body ≠ [] →
      LooseInside (ascii "token") body)
  | authRevoke => TightInside (ascii "token") body
  | authDeviceToken => TightInside (ascii "device_code") body
  | authDeviceVerify =>
    ∀ name ∈ [ascii "user_code", ascii "subject", ascii "token"], TightInside name body
  | keys =>
    ∀ name ∈ [ascii "key_id", ascii "group_id", ascii "public_key", ascii "comment"],
      TightInside name body
  | groupPut => ∀ name ∈ [ascii "group_id", ascii "description"], TightInside name body
  | groupPatch => ∀ name ∈ [ascii "owner", ascii "description"], TightInside name body
  | credentialPut =>
    ∀ name ∈ [ascii "subject", ascii "token", ascii "groups"], TightInside name body
  | peerPut =>
    (∀ name ∈ [ascii "peer_id", ascii "name", ascii "url", ascii "mode", ascii "public_key"],
      LooseInside name body) ∧
    BehindStr (memberKey (ascii "priority")) (fun p => (digitsOf p).dropWhile isDecimal ≠ []) body
  | policyPut => ∃ failure, Pasta.parse body = .error failure
  | yank => LooseInside (ascii "reason") body

/-! ## One field ends -/

/-- A text from behind its opening quote ends at the closing one. -/
theorem quotedAt_bounded : Bounded quotedAt fun p => quote ∈ p where
  settled := by
    intro p more value ends
    cases search : findChr quote p with
    | overrun =>
      rw [quotedAt, search] at ends
      cases ends
    | done found =>
      rw [quotedAt, search] at ends
      rw [quotedAt, findChr_append more search]
      cases found with
      | none => exact ends
      | some rest =>
        obtain ⟨front, tail, whole, _, free⟩ := findChr_front search
        rw [Outcome.bind_done] at ends
        rw [Outcome.bind_done]
        simp only [Option.map_some]
        rw [← ends, whole, List.append_assoc, List.cons_append, takeWhile_ne_stop free,
          takeWhile_ne_stop free]
  ends_iff := by
    intro p
    by_cases terminated : 0 ∈ p
    · obtain ⟨found, search, _⟩ := findChr_terminated (by decide : quote ≠ 0) terminated
      refine iff_of_true ?_ (.inl terminated)
      rw [quotedAt, search, Outcome.bind_done]
      cases found with
      | none => exact ⟨_, rfl⟩
      | some rest => exact ⟨_, rfl⟩
    · rw [or_iff_right terminated, quotedAt, findChr_open terminated]
      by_cases closed : quote ∈ p
      · rw [if_pos closed]
        exact iff_of_true ⟨_, rfl⟩ closed
      · rw [if_neg closed]
        exact iff_of_false (fun ⟨_, ends⟩ => by cases ends) closed

/-- A text behind blanks ends where its parts do. -/
theorem behindBlanks_bounded : Bounded behindBlanks BlanksInside where
  settled := by
    intro p more value ends
    cases skipped : skipWhile Policy.isBlank p with
    | overrun =>
      rw [behindBlanks, skipped] at ends
      cases ends
    | done rest =>
      obtain ⟨longer, nonempty⟩ := skipWhile_append more skipped
      obtain ⟨c, tail, whole⟩ := List.exists_cons_of_ne_nil nonempty
      rw [behindBlanks, skipped, Outcome.bind_done] at ends
      rw [behindBlanks, longer, Outcome.bind_done]
      subst whole
      rw [List.cons_append]
      simp only [List.head?_cons, List.drop_succ_cons, List.drop_zero] at ends ⊢
      split_ifs at ends ⊢ with opened
      · exact quotedAt_bounded.settled tail more value ends
      · exact ends
  ends_iff := by
    intro p
    by_cases terminated : 0 ∈ p
    · obtain ⟨rest, skipped, later⟩ :=
        skipWhile_terminated (by decide : Policy.isBlank 0 = false) terminated
      refine iff_of_true ?_ (.inl terminated)
      rw [behindBlanks, skipped, Outcome.bind_done]
      split_ifs with opened
      · obtain ⟨c, tail, whole⟩ := List.exists_cons_of_ne_nil (List.ne_nil_of_mem later)
        subst whole
        refine (quotedAt_bounded.ends_iff _).mpr (.inl ?_)
        refine (List.mem_cons.mp later).resolve_left fun zero => ?_
        rw [← zero] at opened
        cases opened
      · exact ⟨_, rfl⟩
    · rw [or_iff_right terminated, behindBlanks, skipWhile_eq, BlanksInside]
      by_cases all : p.dropWhile Policy.isBlank = []
      · rw [if_pos all]
        exact iff_of_false (fun ⟨_, ends⟩ => by cases ends) fun both => both.1 all
      · rw [if_neg all, Outcome.bind_done, and_iff_right all]
        by_cases opened : (p.dropWhile Policy.isBlank).head? = some quote
        · have free : 0 ∉ (p.dropWhile Policy.isBlank).drop 1 := fun zero =>
            terminated ((List.dropWhile_suffix _).subset (List.mem_of_mem_drop zero))
          rw [if_pos opened, quotedAt_bounded.ends_iff, or_iff_right free]
          exact ⟨fun closed _ => closed, fun closed => closed opened⟩
        · rw [if_neg opened]
          exact iff_of_true ⟨_, rfl⟩ fun same => absurd same opened

/-- A key is not empty. -/
theorem memberKey_nonempty (name : Bytes) : memberKey name ≠ [] := List.cons_ne_nil _ _

/-- A name without colons and terminators keeps its keys free of terminators. -/
theorem keys_free {name : Bytes} (free : 0 ∉ name) : 0 ∉ memberKey name ∧ 0 ∉ textKey name := by
  have member : 0 ∉ memberKey name := by
    simp only [memberKey, List.mem_cons, List.mem_append, List.not_mem_nil, or_false, not_or]
    exact ⟨by decide, free, by decide, by decide⟩
  refine ⟨member, ?_⟩
  rw [textKey, List.mem_append, not_or]
  exact ⟨member, by decide⟩

/-- Behind the colon of a key is what stands behind the key. -/
theorem behindColon_member {name : Bytes} (free : 0 ∉ name) (plain : colon ∉ name)
    (rest : Bytes) : behindColon (memberKey name ++ rest) = behindBlanks rest := by
  have whole : memberKey name ++ rest = (quote :: (name ++ [quote])) ++ colon :: rest := by
    simp [memberKey]
  have new : colon ∉ quote :: (name ++ [quote]) := by
    simp only [List.mem_cons, List.mem_append, List.not_mem_nil, or_false, not_or]
    exact ⟨by decide, plain, by decide⟩
  have open_key : 0 ∉ quote :: (name ++ [quote]) := by
    simp only [List.mem_cons, List.mem_append, List.not_mem_nil, or_false, not_or]
    exact ⟨by decide, free, by decide⟩
  rw [whole, behindColon, findChr_stop rest new open_key, Outcome.bind_done]
  rfl

/-- Behind the colon of a key with its quote is the text. -/
theorem behindColon_text {name : Bytes} (free : 0 ∉ name) (plain : colon ∉ name) (rest : Bytes) :
    behindColon (textKey name ++ rest) = quotedAt rest := by
  rw [textKey, List.append_assoc, behindColon_member free plain]
  rfl

/-- A search from the colon on ends where its first key is there and its value ends. -/
theorem colonField_bounded {key : Bytes} {keys : List Bytes} {inside others : Bytes → Prop}
    {behind : Bytes → Outcome Scanned} (nonempty : key ≠ []) (free : 0 ∉ key)
    (same : ∀ rest, behindColon (key ++ rest) = behind rest) (bounded : Bounded behind inside)
    (rest : Bounded (colonField keys) others) :
    Bounded (colonField (key :: keys)) (BehindStr key inside) where
  settled := by
    intro body more value ends
    cases search : findStr key body with
    | overrun =>
      rw [colonField, search] at ends
      cases ends
    | done found =>
      rw [colonField, search, Outcome.bind_done] at ends
      rw [colonField, findStr_append free more search, Outcome.bind_done]
      cases found with
      | none => exact rest.settled body more value ends
      | some p =>
        obtain ⟨tail, whole⟩ := findStr_front search
        subst whole
        simp only [Option.map_some, List.append_assoc, same] at ends ⊢
        exact bounded.settled tail more value ends
  ends_iff := by
    intro body
    by_cases terminated : 0 ∈ body
    · refine iff_of_true ?_ (.inl terminated)
      obtain ⟨found, search, later⟩ := findStr_terminated free terminated
      rw [colonField, search, Outcome.bind_done]
      cases found with
      | none => exact (rest.ends_iff body).mpr (.inl terminated)
      | some p =>
        obtain ⟨tail, whole⟩ := findStr_front search
        subst whole
        have zero := later _ rfl
        rw [List.drop_left] at zero
        simp only [same]
        exact (bounded.ends_iff tail).mpr (.inl zero)
    · rw [or_iff_right terminated, colonField, findStr_open nonempty terminated, BehindStr]
      cases search : strstr key body with
      | none =>
        refine iff_of_false (fun ended => by obtain ⟨value, ended⟩ := ended; cases ended) ?_
        rintro ⟨p, member, _⟩
        cases member
      | some p =>
        obtain ⟨suffix, tail, whole⟩ := strstr_some search
        subst whole
        have zero : 0 ∉ tail := fun member =>
          terminated (suffix.subset (List.mem_append_right _ member))
        have ends := bounded.ends_iff tail
        rw [or_iff_right zero] at ends
        simp only [Outcome.bind_done, same]
        rw [ends]
        constructor
        · intro holds
          exact ⟨_, rfl, by rwa [List.drop_left]⟩
        · rintro ⟨_, equal, holds⟩
          cases equal
          rwa [List.drop_left] at holds

section Fields

variable (name : Bytes)

/-- A field with its opening quote. -/
theorem tightField_bounded (free : 0 ∉ name) : Bounded (tightField name) (TightInside name) :=
  quotedAt_bounded.behindStr (List.cons_ne_nil _ _) (keys_free free).2 .absent

/-- A field with blanks in front of its text. -/
theorem looseField_bounded (free : 0 ∉ name) : Bounded (looseField name) (LooseInside name) :=
  behindBlanks_bounded.behindStr (List.cons_ne_nil _ _) (keys_free free).1 .absent

/-- No key is left. -/
theorem colonField_none : Bounded (colonField []) fun _ => True := Bounded.pure Scanned.absent

/-- A field from its colon on. -/
theorem colonField_member {keys : List Bytes} {others : Bytes → Prop} (free : 0 ∉ name)
    (plain : colon ∉ name) (rest : Bounded (colonField keys) others) :
    Bounded (colonField (memberKey name :: keys)) (LooseInside name) :=
  colonField_bounded (List.cons_ne_nil _ _) (keys_free free).1 (behindColon_member free plain)
    behindBlanks_bounded rest

/-- A field with its opening quote, from its colon on. -/
theorem colonField_text {keys : List Bytes} {others : Bytes → Prop} (free : 0 ∉ name)
    (plain : colon ∉ name) (rest : Bounded (colonField keys) others) :
    Bounded (colonField (textKey name :: keys)) (TightInside name) :=
  colonField_bounded (List.cons_ne_nil _ _) (keys_free free).2 (behindColon_text free plain)
    quotedAt_bounded rest

end Fields

/-! ## The handlers end -/

/-- The fields of a device verification end. -/
theorem scanDeviceVerify_bounded :
    Bounded scanDeviceVerify (BodyHandler.authDeviceVerify.Inside) := by
  have all : Bounded scanDeviceVerify _ :=
    (tightField_bounded (ascii "user_code") (by decide)).andThen fun _ =>
    (colonField_text (ascii "subject") (by decide) (by decide)
      (colonField_text (ascii "sub") (by decide) (by decide) colonField_none)).andThen
        fun _ =>
    (tightField_bounded (ascii "token") (by decide)).map fun _ => _
  refine all.congr fun body _ => ?_
  simp only [BodyHandler.Inside, List.forall_mem_cons, List.not_mem_nil, false_implies,
    implies_true, and_true]

/-- The fields of a key registration end. -/
theorem scanKeys_bounded : Bounded scanKeys (BodyHandler.keys.Inside) := by
  have all : Bounded scanKeys _ :=
    (tightField_bounded (ascii "key_id") (by decide)).andThen fun _ =>
    (tightField_bounded (ascii "group_id") (by decide)).andThen fun _ =>
    (tightField_bounded (ascii "public_key") (by decide)).andThen fun _ =>
    (tightField_bounded (ascii "comment") (by decide)).map fun _ => _
  refine all.congr fun body _ => ?_
  simp only [BodyHandler.Inside, List.forall_mem_cons, List.not_mem_nil, false_implies,
    implies_true, and_true]

/-- The fields of a new group end. -/
theorem scanGroupPut_bounded : Bounded scanGroupPut (BodyHandler.groupPut.Inside) := by
  have all : Bounded scanGroupPut _ :=
    (tightField_bounded (ascii "group_id") (by decide)).andThen fun _ =>
    (tightField_bounded (ascii "description") (by decide)).map fun _ => _
  refine all.congr fun body _ => ?_
  simp only [BodyHandler.Inside, List.forall_mem_cons, List.not_mem_nil, false_implies,
    implies_true, and_true]

/-- The fields of a change to a group end. -/
theorem scanGroupPatch_bounded : Bounded scanGroupPatch (BodyHandler.groupPatch.Inside) := by
  have all : Bounded scanGroupPatch _ :=
    (tightField_bounded (ascii "owner") (by decide)).andThen fun _ =>
    (tightField_bounded (ascii "description") (by decide)).map fun _ => _
  refine all.congr fun body _ => ?_
  simp only [BodyHandler.Inside, List.forall_mem_cons, List.not_mem_nil, false_implies,
    implies_true, and_true]

/-- The fields of a credential end. -/
theorem scanCredentialPut_bounded :
    Bounded scanCredentialPut (BodyHandler.credentialPut.Inside) := by
  have all : Bounded scanCredentialPut _ :=
    (tightField_bounded (ascii "subject") (by decide)).andThen fun _ =>
    (tightField_bounded (ascii "token") (by decide)).andThen fun _ =>
    (tightField_bounded (ascii "groups") (by decide)).map fun _ => _
  refine all.congr fun body _ => ?_
  simp only [BodyHandler.Inside, List.forall_mem_cons, List.not_mem_nil, false_implies,
    implies_true, and_true]

/-- A number ends where its digits do not end the body. -/
theorem readNumber_bounded :
    Bounded readNumber fun p => (digitsOf p).dropWhile isDecimal ≠ [] where
  settled := readNumber_settled
  ends_iff := by
    intro p
    by_cases terminated : 0 ∈ p
    · exact iff_of_true ⟨_, readNumber_terminated terminated⟩ (.inl terminated)
    · rw [or_iff_right terminated, readNumber_eq]
      by_cases all : (digitsOf p).dropWhile isDecimal = []
      · rw [if_pos all]
        exact iff_of_false (fun ⟨_, ends⟩ => by cases ends) fun more => more all
      · rw [if_neg all]
        exact iff_of_true ⟨_, rfl⟩ all

/-- The fields of a peer end. -/
theorem scanPeerPut_bounded : Bounded scanPeerPut (BodyHandler.peerPut.Inside) := by
  have all : Bounded scanPeerPut _ :=
    (looseField_bounded (ascii "peer_id") (by decide)).andThen fun _ =>
    (looseField_bounded (ascii "name") (by decide)).andThen fun _ =>
    (looseField_bounded (ascii "url") (by decide)).andThen fun _ =>
    (looseField_bounded (ascii "mode") (by decide)).andThen fun _ =>
    (looseField_bounded (ascii "public_key") (by decide)).andThen fun _ =>
    (readNumber_bounded.behindStr (memberKey_nonempty (ascii "priority")) (by decide) 100).map fun _ => _
  refine all.congr fun body _ => ?_
  simp only [BodyHandler.Inside, List.forall_mem_cons, List.not_mem_nil, false_implies,
    implies_true, and_true, and_assoc]

/-! ## The body of a token request -/

/-- A text that is found in a body without a terminator. -/
theorem looseField_found {name body : Bytes} {value : Scanned} (terminated : 0 ∉ body)
    (ends : looseField name body = .done value) (size : Nat) :
    value.text size = (looseText name body).take (size - 1) := by
  rw [looseField, behindStr, findStr_open (memberKey_nonempty _) terminated] at ends
  rw [looseText]
  cases search : strstr (memberKey name) body with
  | none =>
    rw [search] at ends
    cases ends
  | some p =>
    rw [search, Outcome.bind_done] at ends
    simp only [behindBlanks, skipWhile_eq] at ends ⊢
    have rest : 0 ∉ ((p.drop (memberKey name).length).dropWhile Policy.isBlank).drop 1 := fun zero =>
      terminated ((strstr_some search).1.subset (List.mem_of_mem_drop
        ((List.dropWhile_suffix _).subset (List.mem_of_mem_drop zero))))
    by_cases all : (p.drop (memberKey name).length).dropWhile Policy.isBlank = []
    · rw [if_pos all] at ends
      cases ends
    · rw [if_neg all, Outcome.bind_done] at ends
      by_cases opened :
          ((p.drop (memberKey name).length).dropWhile Policy.isBlank).head? = some quote
      · rw [if_pos opened, quotedAt, findChr_open rest] at ends
        rw [if_pos opened]
        split_ifs at ends with closed
        · cases ends
          rfl
        · cases ends
      · rw [if_neg opened] at ends
        cases ends
        rw [if_neg opened, List.take_nil]
        rfl

/-- From the colon on, the same text is found in a body without a terminator. -/
theorem colonField_found {name body : Bytes} {keys : List Bytes} {value : Scanned}
    (free : 0 ∉ name) (plain : colon ∉ name) (terminated : 0 ∉ body)
    (ends : colonField (memberKey name :: keys) body = .done value) (size : Nat) :
    value.text size = (looseText name body).take (size - 1) := by
  refine looseField_found terminated ?_ size
  rw [colonField, findStr_open (memberKey_nonempty _) terminated] at ends
  rw [looseField, behindStr, findStr_open (memberKey_nonempty _) terminated]
  cases search : strstr (memberKey name) body with
  | none =>
    rw [search] at ends
    cases ends
  | some p =>
    rw [search, Outcome.bind_done] at ends
    rw [Outcome.bind_done, ← ends]
    obtain ⟨tail, whole⟩ := (strstr_some search).2
    subst whole
    simp only [List.drop_left, behindColon_member free plain]

/-- The client id ends where its key is there and, without a subject, its value ends. -/
theorem clientId_bounded (sub : Bytes) :
    Bounded (clientId sub) fun body =>
      BehindStr (memberKey (ascii "client_id")) (fun _ => True) body ∧
        (sub = [] → LooseInside (ascii "client_id") body) := by
  by_cases missing : sub = []
  · subst missing
    have same : clientId [] = fun body =>
        (colonField [memberKey (ascii "client_id")] body).bind fun value =>
          .done (value.text 128) := by
      funext body
      rw [clientId, colonField]
      cases findStr (memberKey (ascii "client_id")) body with
      | overrun => rfl
      | done found =>
        cases found with
        | none => rfl
        | some p => rfl
    rw [same]
    refine ((colonField_member (ascii "client_id") (by decide) (by decide)
      colonField_none).map _).congr fun body _ => ?_
    constructor
    · rintro ⟨p, found, ends⟩
      exact ⟨⟨p, found, trivial⟩, fun _ => ⟨p, found, ends⟩⟩
    · rintro ⟨_, ends⟩
      exact ends rfl
  · have same : clientId sub =
        behindStr (memberKey (ascii "client_id")) sub fun _ => .done sub := by
      funext body
      rw [clientId, behindStr]
      cases findStr (memberKey (ascii "client_id")) body with
      | overrun => rfl
      | done found =>
        cases found with
        | none => rfl
        | some p => exact if_neg missing
    rw [same]
    refine ((Bounded.pure sub).behindStr (List.cons_ne_nil _ _) (by decide) sub).congr
      fun body _ => ?_
    exact ⟨fun found => ⟨found, fun none => absurd none missing⟩, fun both => both.1⟩

/-- The token ends where there is no subject or its value ends. -/
theorem bodyToken_bounded (sub : Bytes) :
    Bounded (bodyToken sub) fun body => sub ≠ [] → LooseInside (ascii "token") body := by
  by_cases missing : sub = []
  · have same : bodyToken sub = fun _ => .done [] := by
      funext body
      rw [bodyToken, if_pos missing]
    rw [same]
    exact (Bounded.pure _).congr fun body _ =>
      iff_of_true trivial fun some => absurd missing some
  · have same : bodyToken sub = fun body =>
        (colonField [memberKey (ascii "token")] body).bind fun value =>
          .done (value.text 512) := by
      funext body
      rw [bodyToken, if_neg missing]
    rw [same]
    exact ((colonField_member (ascii "token") (by decide) (by decide)
      colonField_none).map _).congr fun body _ => ⟨fun ends _ => ends, fun ends => ends missing⟩

/-- The subject behind the client id, in a body without a terminator. -/
theorem clientId_found {sub body found : Bytes} (terminated : 0 ∉ body)
    (ends : clientId sub body = .done found) :
    found = [] ↔ sub = [] ∧ looseText (ascii "client_id") body = [] := by
  rw [clientId] at ends
  cases search : findStr (memberKey (ascii "client_id")) body with
  | overrun =>
    rw [search] at ends
    cases ends
  | done place =>
    rw [search, Outcome.bind_done] at ends
    rw [findStr_open (memberKey_nonempty _) terminated] at search
    cases place with
    | none =>
      cases key : strstr (memberKey (ascii "client_id")) body with
      | none =>
        rw [key] at search
        cases search
      | some p =>
        rw [key] at search
        cases search
    | some p =>
      simp only at ends
      split_ifs at ends with missing
      · cases value : behindColon p with
        | overrun =>
          rw [value] at ends
          cases ends
        | done value' =>
          rw [value] at ends
          cases ends
          have field : colonField [memberKey (ascii "client_id")] body = .done value' := by
            rw [colonField, findStr_open (memberKey_nonempty _) terminated, search]
            exact value
          have text := colonField_found (by decide) (by decide) terminated field 128
          rw [text, and_iff_right missing, List.take_eq_nil_iff]
          exact or_iff_right (by decide)
      · cases ends
        exact iff_of_false missing fun both => missing both.1

/-- The fields of a token request end. -/
theorem scanAuthToken_bounded : Bounded scanAuthToken (BodyHandler.authToken.Inside) := by
  have all : Bounded scanAuthToken _ :=
    (colonField_member (ascii "sub") (by decide) (by decide)
      (colonField_member (ascii "subject") (by decide) (by decide)
        colonField_none)).next fun sub =>
    (looseField_bounded (ascii "groups") (by decide)).andThen fun _ =>
    (colonField_member (ascii "method") (by decide) (by decide)
      colonField_none).andThen fun _ =>
    (colonField_member (ascii "grant_type") (by decide) (by decide)
      colonField_none).andThen fun _ =>
    (colonField_member (ascii "client_secret") (by decide) (by decide)
      colonField_none).andThen fun _ =>
    (clientId_bounded (sub.text 128)).next fun sub => (bodyToken_bounded sub).map fun _ => _
  refine all.congr fun body terminated => ?_
  have subject : ∀ sub, colonField [memberKey (ascii "sub"), memberKey (ascii "subject")] body =
      .done sub → (sub.text 128 = [] ↔ looseText (ascii "sub") body = []) := by
    intro sub found
    rw [colonField_found (by decide) (by decide) terminated found 128, List.take_eq_nil_iff]
    exact or_iff_right (by decide)
  simp only [BodyHandler.Inside, List.forall_mem_cons, List.not_mem_nil, false_implies,
    implies_true, and_true]
  constructor
  · rintro ⟨subInside, more⟩
    obtain ⟨sub, found⟩ := ((colonField_member (ascii "sub") (by decide) (by decide)
      (colonField_member (ascii "subject") (by decide) (by decide)
        colonField_none)).ends_iff body).mpr (.inr subInside)
    obtain ⟨groups, method, grantType, clientSecret, ⟨clientKey, client⟩, token⟩ := more sub found
    obtain ⟨client', clientFound⟩ :=
      ((clientId_bounded (sub.text 128)).ends_iff body).mpr (.inr ⟨clientKey, client⟩)
    have none := clientId_found terminated clientFound
    rw [subject sub found] at client none
    refine ⟨⟨subInside, groups, method, grantType, clientSecret⟩, clientKey, client,
      fun some => token client' clientFound fun empty => ?_⟩
    obtain ⟨noSub, noClient⟩ := none.mp empty
    exact some.elim (fun named => named noSub) fun named => named noClient
  · rintro ⟨⟨subInside, groups, method, grantType, clientSecret⟩, clientKey, client, token⟩
    refine ⟨subInside, fun sub found => ⟨groups, method, grantType, clientSecret,
      ⟨clientKey, fun empty => client ((subject sub found).mp empty)⟩,
      fun client' clientFound named => token ?_⟩⟩
    have none := clientId_found terminated clientFound
    rw [subject sub found] at none
    by_contra neither
    rw [not_or, not_not, not_not] at neither
    exact named (none.mpr neither)

/-! ## Bodies -/

/-- A scan that is bounded takes the same from a body whatever lies behind it exactly where it ends
in the body. -/
theorem independent_iff {scan : Bytes → Outcome BodyFields} {inside : Bytes → Prop}
    (bounded : Bounded scan inside) (body : Bytes) :
    (∃ fields, ∀ behind, scan (body ++ behind) = .done fields) ↔ 0 ∈ body ∨ inside body := by
  rw [← bounded.ends_iff]
  constructor
  · rintro ⟨fields, same⟩
    have ends := same []
    rw [List.append_nil] at ends
    exact ⟨fields, ends⟩
  · rintro ⟨fields, ends⟩
    exact ⟨fields, fun behind => bounded.settled body behind fields ends⟩

/-- A policy is stored as the database finds its end. -/
theorem scanPolicyPut_independent_iff (body : Bytes) :
    BodyHandler.policyPut.Independent body ↔ 0 ∈ body ∨ BodyHandler.policyPut.Inside body := by
  have cut : ∀ behind, (body ++ behind).take body.length = body := fun behind => List.take_left
  simp only [BodyHandler.Independent, BodyHandler.scan, scanPolicyPut, cut, BodyHandler.Inside]
  cases parsed : Pasta.parse body with
  | error failure =>
    exact iff_of_true ⟨_, fun _ => rfl⟩ (.inr ⟨failure, rfl⟩)
  | ok value =>
    have stored : Bounded (fun memory => (readString memory).bind fun pastlet =>
        .done (BodyFields.policyPut (some pastlet))) fun _ => False :=
      Bounded.map ⟨readString_settled, fun memory => by
        rw [or_false]
        exact readString_inside_iff memory⟩ fun pastlet => BodyFields.policyPut (some pastlet)
    rw [independent_iff stored]
    exact or_congr_right (iff_of_false id fun ⟨_, same⟩ => by cases same)

/-- What a handler takes from a body depends on the body alone exactly when the body has a zero byte
or every search ends inside it. -/
theorem BodyHandler.independent_iff (handler : BodyHandler) (body : Bytes) :
    handler.Independent body ↔ 0 ∈ body ∨ handler.Inside body := by
  cases handler with
  | authToken => exact Server.independent_iff scanAuthToken_bounded body
  | authRevoke => exact Server.independent_iff ((tightField_bounded _ (by decide)).map _) body
  | authDeviceToken => exact Server.independent_iff ((tightField_bounded _ (by decide)).map _) body
  | authDeviceVerify => exact Server.independent_iff scanDeviceVerify_bounded body
  | keys => exact Server.independent_iff scanKeys_bounded body
  | groupPut => exact Server.independent_iff scanGroupPut_bounded body
  | groupPatch => exact Server.independent_iff scanGroupPatch_bounded body
  | credentialPut => exact Server.independent_iff scanCredentialPut_bounded body
  | peerPut => exact Server.independent_iff scanPeerPut_bounded body
  | policyPut => exact scanPolicyPut_independent_iff body
  | yank => exact Server.independent_iff ((looseField_bounded _ (by decide)).map _) body

/-- In every request that is read, what a handler takes from the body depends on the body alone
exactly when the body has a zero byte or every search ends inside it. -/
theorem bodyScans_independent_iff (handler : BodyHandler) (request : Request) :
    (∀ body ∈ readBody request handler.maxBytes, handler.Independent body) ↔
      ∀ body ∈ readBody request handler.maxBytes, 0 ∈ body ∨ handler.Inside body :=
  forall₂_congr fun body _ => handler.independent_iff body

/-- `{"sub":"alice"}` -/
def aliceBody : Bytes := ascii "\x7b\"sub\":\"alice\"\x7d"

/-- A token request of fifteen bytes. -/
def plainTokenRequest : Request where
  method := ascii "POST"
  localUri := ascii "/auth/token"
  queryString := none
  headers := []
  contentLength := 15
  body := aliceBody
  behindBody := []

/-- What lies behind this body in memory decides the groups of the token. -/
theorem tokenRequest_depends :
    readBody plainTokenRequest BodyHandler.authToken.maxBytes = some aliceBody ∧
      ¬ BodyHandler.authToken.Independent aliceBody := by
  refine ⟨by decide +kernel, ?_⟩
  rintro ⟨fields, same⟩
  have alone := same [0]
  have followed := same (ascii "\"groups\":\"admin\"" ++ [0])
  have different : BodyHandler.authToken.scan aliceBody.length (aliceBody ++ [0]) ≠
      BodyHandler.authToken.scan aliceBody.length
        (aliceBody ++ (ascii "\"groups\":\"admin\"" ++ [0])) := by
    decide +kernel
  exact different (alone.trans followed.symm)

end Cookbook.Server
