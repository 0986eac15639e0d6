import Cookbook.Auth.Base64
import Cookbook.Server.Url

/-!
# The key of the peer that signed a request

A signed grid request names its origin in a header. `cookbook_grid_load_peer_key` puts the header's
value between two apostrophes of a query text, in a buffer of 256 bytes, and the signature is checked
under the key that the query finds. The text means the intended query exactly when the value has no
apostrophe and the buffer holds the whole text.
-/
namespace Cookbook.Grid

open Library.Text Library.Sql Library.Program Server

/-! ## The query text -/

/-- The query text in front of the peer's name. -/
def keySqlFront : Bytes := ascii "SELECT public_key FROM peers WHERE peer_id = "

/-- The query text behind the apostrophe that follows the name. -/
def keySqlBack : Bytes := ascii " AND enabled = 1 AND public_key IS NOT NULL"

/-- The query text of `cookbook_grid_load_peer_key`. -/
def keySql (peerId : Bytes) : Bytes :=
  snprintf 256 (keySqlFront ++ apostrophe :: (peerId ++ apostrophe :: keySqlBack))

/-! ## Loading a key -/

/-- The bytes of the hexadecimal digits that `peer_key_cb` writes over the old key, and whether it
read all of them. -/
def readKeyBytes (hex : Bytes) : Nat → Nat → Bytes → Bytes × Bool
  | 0, _, key => (key, true)
  | count + 1, index, key =>
    match scanHexPair (hex.drop (2 * index)) with
    | none => (key, false)
    | some byte => readKeyBytes hex count (index + 1) (key.set index byte)

/-- `peer_key_ctx` -/
structure PeerKey where
  /-- `pk` -/
  pk : Bytes
  /-- `found` -/
  found : Bool

/-- `peer_key_cb` -/
def peerKeyCb (ctx : PeerKey) (row : Row) : PeerKey :=
  match row.head? with
  | some (some hex) =>
    if hex.length ≠ 64 then ctx
    else
      let read := readKeyBytes hex 32 0 ctx.pk
      ⟨read.1, ctx.found || read.2⟩
  | _ => ctx

/-- A new `peer_key_ctx`. -/
def noPeerKey : PeerKey := ⟨List.replicate 32 0, false⟩

/-- `cookbook_grid_load_peer_key` -/
def loadPeerKey (peerId : Bytes) : Handler (Option Bytes) :=
  (Handler.query (keySql peerId)).bind fun rows =>
    let ctx := rows.foldl peerKeyCb noPeerKey
    .done (if ctx.found then some ctx.pk else none)

/-- The key that a text of 64 hexadecimal digits stands for. -/
def storedKey (hex : Bytes) : Option Bytes :=
  if (peerKeyCb noPeerKey [some hex]).found then some (peerKeyCb noPeerKey [some hex]).pk else none

/-! ## Signed requests -/

/-- `cookbook_grid_build_canonical` -/
def buildCanonical (method path via : Bytes) (hopCount : Int) (grants exclude : Bytes)
    (timestamp : Int) : Bytes :=
  method ++ newline :: (path ++ newline :: (via ++ newline :: (decimal hopCount ++ newline ::
    (grants ++ newline :: (exclude ++ newline :: (decimal timestamp ++ [newline]))))))

/-- `X-Cookbook-Grid-Origin` -/
def originHeaderName : Bytes := ascii "X-Cookbook-Grid-Origin"
/-- `X-Cookbook-Grid-Signature` -/
def signatureHeaderName : Bytes := ascii "X-Cookbook-Grid-Signature"
/-- `X-Cookbook-Timestamp` -/
def timestampHeaderName : Bytes := ascii "X-Cookbook-Timestamp"
/-- `X-Cookbook-Via` -/
def viaHeaderName : Bytes := ascii "X-Cookbook-Via"
/-- `X-Cookbook-Hop-Count` -/
def hopCountHeaderName : Bytes := ascii "X-Cookbook-Hop-Count"

/-- `grid_get_hop_count` -/
def gridGetHopCount (headers : Headers) : Int :=
  match findHeader headers hopCountHeaderName with
  | none => 0
  | some value => atoi value

/-- `grid_get_via` -/
def gridGetVia (headers : Headers) : Option Bytes := findHeader headers viaHeaderName

/-- What a request signs. -/
def signedContent (request : Request) (timestamp : Int) : Bytes :=
  buildCanonical request.method request.localUri ((gridGetVia request.headers).getD [])
    (gridGetHopCount request.headers) ((findHeader request.headers grantsHeaderName).getD [])
    ((findHeader request.headers excludeHeaderName).getD []) timestamp

/-- The origin, the signature and the timestamp of a signed request. -/
def signatureHeaders (headers : Headers) : Option (Bytes × Bytes × Bytes) :=
  (findHeader headers signatureHeaderName).bind fun sigB64 =>
  (findHeader headers originHeaderName).bind fun origin =>
    (findHeader headers timestampHeaderName).map fun timestamp => (origin, sigB64, timestamp)

/-- `verify_grid_peer_sig` -/
def verifyGridPeerSig (config : Config) (request : Request) : Handler Bool :=
  match signatureHeaders request.headers with
  | none => .done (!config.gridPeerAuth)
  | some (origin, sigB64, tsStr) =>
    let ts := strtoll tsStr
    Handler.time.bind fun now =>
      if 300 < (now - ts).natAbs then .done false
      else
        (loadPeerKey origin).bind fun
          | none => .done false
          | some peerPk =>
            let sig := Auth.base64urlDecode sigB64 64
            if sig.length ≠ 64 then .done false
            else .done (config.ed25519Verify sig (signedContent request ts) peerPk)

/-! ## The text means the query -/

/-- The text in front of the name is cut into its tokens. -/
theorem lexFrom_front (fuel : Nat) (rest : Bytes) :
    lexFrom (fuel + 14) (keySqlFront ++ apostrophe :: rest) [] =
      lexFrom fuel (apostrophe :: rest) keyQueryFront := rfl

/-- A literal, and the rest of the text behind it. -/
theorem lexFrom_literal (fuel : Nat) (rest : Bytes) (tokens : List Token) :
    lexFrom (fuel + 1) (apostrophe :: rest) tokens =
      match scanQuoted apostrophe rest with
      | some (value, after) => lexFrom fuel after (tokens ++ [.string value])
      | none => none := by
  have cut : getToken apostrophe rest =
      match scanQuoted apostrophe rest with
      | some (value, after) => (.token (.string value), after)
      | none => (.illegal, []) := rfl
  rw [lexFrom, cut]
  cases scanQuoted apostrophe rest <;> rfl

/-- The text behind the name is cut into its tokens. -/
theorem lexFrom_back (more : Nat) (tokens : List Token) :
    lexFrom (43 + more) keySqlBack tokens = some (tokens ++ keyQueryBack) := by
  have back : lexFrom 43 keySqlBack [] = some keyQueryBack := by decide +kernel
  rw [lexFrom_acc, lexFrom_more more back]
  rfl

/-- No cut text behind the name is cut into the same tokens. -/
theorem lexFrom_cut {fuel size : Nat} {tokens : List Token} (enough : fuel ≤ 300)
    (cut : size < keySqlBack.length)
    (lexed : lexFrom fuel (keySqlBack.take size) tokens = some (tokens ++ keyQueryBack)) : False := by
  have differs : ∀ size < 43, lexFrom 300 (keySqlBack.take size) [] ≠ some keyQueryBack := by
    decide +kernel
  rw [lexFrom_acc] at lexed
  obtain ⟨found, lexed, same⟩ := Option.map_eq_some_iff.mp lexed
  obtain rfl := List.append_cancel_left same
  have longer := lexFrom_more (300 - fuel) lexed
  rw [Nat.add_sub_cancel' enough] at longer
  exact differs size cut longer

/-- The value of a literal and what follows it, from the tokens of the query. -/
theorem literal_of_keyQuery {fuel : Nat} {peerId rest : Bytes}
    (lexed : lexFrom (fuel + 1) (apostrophe :: rest) keyQueryFront = some (keyQuery peerId)) :
    ∃ after, scanQuoted apostrophe rest = some (peerId, after) ∧
      lexFrom fuel after (keyQueryFront ++ [.string peerId]) =
        some ((keyQueryFront ++ [.string peerId]) ++ keyQueryBack) := by
  rw [lexFrom_literal] at lexed
  split at lexed
  · rename_i value after scan
    have parts := lexed
    rw [lexFrom_acc] at parts
    obtain ⟨found, -, same⟩ := Option.map_eq_some_iff.mp parts
    have behind := List.append_cancel_left
      ((List.append_assoc keyQueryFront [.string value] found).symm.trans same)
    obtain rfl : value = peerId := by
      have first := (List.cons.inj behind).1
      injection first
    refine ⟨after, scan, ?_⟩
    rw [lexed, keyQuery, List.append_assoc, List.singleton_append]
  · cases lexed

/-- The text is cut into the query for exactly the name when the name has no apostrophe and the
buffer holds the whole text. -/
theorem lex_keySql_iff (peerId : Bytes) :
    lex (keySql peerId) = some (keyQuery peerId) ↔
      apostrophe ∉ peerId ∧ peerId.length + 90 < 256 := by
  have frontLength : keySqlFront.length = 45 := by decide
  have backLength : keySqlBack.length = 43 := by decide
  -- The buffer cuts the text behind the first apostrophe.
  have shape : keySql peerId =
      keySqlFront ++ apostrophe :: (peerId ++ apostrophe :: keySqlBack).take 209 := by
    rw [keySql, snprintf, List.take_append, frontLength, List.take_of_length_le (by omega)]
    rfl
  have length : (keySql peerId).length = 46 + min 209 (peerId.length + 44) := by
    simp only [shape, List.length_append, List.length_cons, List.length_take, frontLength, backLength]
    omega
  have started : lex (keySql peerId) = lexFrom ((keySql peerId).length - 15 + 1)
      (apostrophe :: (peerId ++ apostrophe :: keySqlBack).take 209) keyQueryFront := by
    rw [← lexFrom_front, ← shape, lex, show (keySql peerId).length - 15 + 1 + 14 =
      (keySql peerId).length by omega]
  rw [started]
  constructor
  · intro lexed
    obtain ⟨after, scan, behind⟩ := literal_of_keyQuery lexed
    obtain ⟨cut, -⟩ := scanQuoted_some scan
    have front : escape apostrophe peerId ++ [apostrophe] <+:
        peerId ++ apostrophe :: space :: keySqlBack.drop 1 := by
      refine List.IsPrefix.trans ⟨after, ?_⟩ (List.take_prefix 209 _)
      rw [List.append_assoc, List.singleton_append, ← cut]
      rfl
    have free := escape_prefix_free (by decide) peerId _ front
    refine ⟨free, ?_⟩
    by_contra long
    rw [escape_free free] at cut
    have cutLength := congrArg List.length cut
    simp only [List.length_take, List.length_append, List.length_cons, backLength] at cutLength
    have rest : after = keySqlBack.take (208 - peerId.length) := by
      rw [List.take_append, List.take_of_length_le (by omega)] at cut
      have behind := List.append_cancel_left cut
      rw [show 209 - peerId.length = (208 - peerId.length) + 1 by omega, List.take_succ_cons] at behind
      exact (List.cons.inj behind).2.symm
    rw [rest] at behind
    exact lexFrom_cut (by omega) (by omega) behind
  · rintro ⟨free, fits⟩
    rw [List.take_of_length_le (by simp only [List.length_append, List.length_cons, backLength]; omega),
      lexFrom_literal, scanQuoted_free free (by decide)]
    have enough : (keySql peerId).length - 15 = 43 + (32 + peerId.length) := by omega
    simp only [enough, lexFrom_back, keyQuery, List.append_assoc, List.singleton_append]

/-! ## The signature binds the origin -/

/-- A key is the stored public key of an enabled peer. -/
def KeyOf (db : Database) (peerId key : Bytes) : Prop :=
  ∃ row ∈ db.peers, row.peerId = peerId ∧ row.enabled = 1 ∧
    ∃ hex, row.publicKey = some hex ∧ storedKey hex = some key

/-- The query for a name is answered from the peers of that name. -/
theorem keyQueryPeer_keyQuery (peerId : Bytes) : keyQueryPeer (keyQuery peerId) = some peerId := by
  simp [keyQueryPeer, keyQuery, keyQueryFront]

/-- Where names are unique there is at most one key for a name. -/
theorem peerKeys_unique {db : Database} (unique : (db.peers.map PeerRow.peerId).Nodup)
    (peerId : Bytes) : (db.peerKeys peerId).length ≤ 1 := by
  have few : (db.peers.filter fun row => row.peerId == peerId && row.enabled == 1).length ≤ 1 := by
    by_contra many
    generalize shape : (db.peers.filter fun row => row.peerId == peerId && row.enabled == 1) = rows
      at many
    rcases rows with _ | ⟨first, _ | ⟨second, rest⟩⟩
    · simp at many
    · simp at many
    · have sub := (List.filter_sublist (l := db.peers)
        (p := fun row => row.peerId == peerId && row.enabled == 1)).map PeerRow.peerId
      rw [shape] at sub
      have distinct := unique.sublist sub
      have named : ∀ row ∈ first :: second :: rest, row.peerId = peerId := by
        intro row member
        rw [← shape, List.mem_filter] at member
        simpa using (Bool.and_eq_true_iff.mp member.2).1
      simp [named first (by simp), named second (by simp)] at distinct
  exact Nat.le_trans (List.length_filterMap_le _ _) few

/-- The key that is loaded for a plain name is stored for that name. -/
theorem loadPeerKey_keyOf {world : World} (state : State) {peerId key : Bytes}
    (unique : (state.db.peers.map PeerRow.peerId).Nodup)
    (bound : lex (keySql peerId) = some (keyQuery peerId))
    (loaded : (world.machine.run (loadPeerKey peerId) state).value = some key) :
    KeyOf state.db peerId key := by
  have rows : (world.machine.apply (.query (keySql peerId)) state).1 =
      if world.dbFails state.ticks then []
      else (state.db.peerKeys peerId).map fun key => [some key] := by
    simp [World.machine, World.apply, World.answerQuery, bound, keyQueryPeer_keyQuery]
  simp only [loadPeerKey, Handler.query, Prog.perform_bind, Machine.run_call_value, rows,
    Machine.run_done] at loaded
  have single := peerKeys_unique unique peerId
  split at loaded
  · cases loaded
  · generalize shape : state.db.peerKeys peerId = keys at single loaded
    rcases keys with _ | ⟨hex, _ | ⟨_, _⟩⟩
    · cases loaded
    · have member : hex ∈ state.db.peerKeys peerId := by simp [shape]
      obtain ⟨row, inside, stored⟩ := List.mem_filterMap.mp member
      obtain ⟨inside, named⟩ := List.mem_filter.mp inside
      simp only [Bool.and_eq_true, beq_iff_eq] at named
      exact ⟨row, inside, named.1, named.2, hex, stored, loaded⟩
    · simp at single

/-- An origin is bound: the query text means the query for exactly this name, and a signed request
with this origin is accepted only under the key that is stored for the enabled peer of this name. -/
structure OriginBound (origin : Bytes) : Prop where
  /-- The text is cut into the query. -/
  text : lex (keySql origin) = some (keyQuery origin)
  /-- The signature verifies under the stored key. -/
  signature : ∀ (config : Config) (request : Request) (world : World) (state : State)
    (sigB64 timestamp : Bytes), (state.db.peers.map PeerRow.peerId).Nodup →
    signatureHeaders request.headers = some (origin, sigB64, timestamp) →
    (world.machine.run (verifyGridPeerSig config request) state).value = true →
    ∃ key, KeyOf state.db origin key ∧ config.ed25519Verify (Auth.base64urlDecode sigB64 64)
      (signedContent request (strtoll timestamp)) key = true

/-- A request is accepted only under the key that was loaded for its origin. -/
theorem verifyGridPeerSig_loaded {config : Config} {request : Request} {world : World}
    {state : State} {origin sigB64 timestamp : Bytes}
    (signed : signatureHeaders request.headers = some (origin, sigB64, timestamp))
    (accepted : (world.machine.run (verifyGridPeerSig config request) state).value = true) :
    ∃ key, (world.machine.run (loadPeerKey origin)
        { state with ticks := state.ticks + 1 }).value = some key ∧
      config.ed25519Verify (Auth.base64urlDecode sigB64 64)
        (signedContent request (strtoll timestamp)) key = true := by
  simp only [verifyGridPeerSig, signed, Handler.time, Prog.perform_bind, Machine.run_call_value]
    at accepted
  split at accepted
  · cases accepted
  · rw [Machine.run_bind] at accepted
    simp only at accepted
    split at accepted
    · cases accepted
    · rename_i key loaded
      split at accepted
      · cases accepted
      · exact ⟨key, loaded, accepted⟩

/-- An origin is bound exactly when it has no apostrophe and the buffer holds its query. -/
theorem originBound_iff (origin : Bytes) :
    OriginBound origin ↔ apostrophe ∉ origin ∧ origin.length + 90 < 256 := by
  constructor
  · intro bound
    exact (lex_keySql_iff origin).mp bound.text
  · intro plain
    have text := (lex_keySql_iff origin).mpr plain
    refine ⟨text, fun config request world state sigB64 timestamp unique signed accepted => ?_⟩
    obtain ⟨key, loaded, verified⟩ := verifyGridPeerSig_loaded signed accepted
    exact ⟨key, loadPeerKey_keyOf ({ state with ticks := state.ticks + 1 }) unique text loaded,
      verified⟩

/-- A header value that closes the literal, selects a constant and comments out the rest. -/
def forgedOrigin : Bytes :=
  ascii "' UNION SELECT '" ++ List.replicate 64 0x30 ++ ascii "' --"

/-- The text then selects a key of the sender's choice, and the origin is not bound. -/
theorem forgedOrigin_not_bound :
    lex (keySql forgedOrigin) = some (keyQueryFront ++ [.string [], .word (ascii "UNION"),
      .word (ascii "SELECT"), .string (List.replicate 64 0x30)]) ∧
      ¬ OriginBound forgedOrigin := by
  refine ⟨by decide +kernel, fun bound => ?_⟩
  exact absurd ((originBound_iff forgedOrigin).mp bound).1 (by decide +kernel)

end Cookbook.Grid
