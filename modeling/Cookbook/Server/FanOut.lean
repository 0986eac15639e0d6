import Cookbook.Grid.Artifact
import Cookbook.Server.Serve

/-!
# Files that only a peer has

A peer takes the status of its store for a truth value when it is asked with `HEAD`: it confirms the
files it does not have. A registry that misses a file locally asks its peers one after the other, with
`HEAD` those to which it redirects, and stops at the first that answers with 200.
-/
namespace Cookbook.Server

open Library.Text Library.Program

/-! ## One peer -/

/-- The same request with another method. -/
def Request.withMethod (request : Request) (method : String) : Request :=
  { request with method := ascii method }

/-- A handler answers with a status. -/
def AnswersWith (status : Nat) (outcome : Outcome Reply) : Prop :=
  ∃ reply, outcome = .done reply ∧ reply.status = status

/-- A registry with its state. -/
structure Registry where
  /-- The configuration. -/
  config : Config
  /-- What it does not decide. -/
  world : World
  /-- What it keeps. -/
  state : State

namespace Registry

variable (registry : Registry)

/-- What a peer answers to a request. -/
def answer (request : Request) : Outcome Reply :=
  (registry.world.machine.run (Grid.handleGridArtifact registry.config request) registry.state).value

/-- The object of a path. -/
def object (path : Bytes) : Option Bytes :=
  registry.state.objects.get (Grid.storeKey registry.config.registryId path)

/-- The store fails behind the guards of a request. -/
def storeFails (request : Request) : Bool :=
  registry.world.storeFails
    (registry.state.ticks + if (Grid.signatureHeaders request.headers).isSome then 2 else 0)

/-- A request may read a path: the guards let it pass, and the grants allow it. -/
structure Reads (request : Request) (path : Bytes) : Prop where
  /-- The guards. -/
  reaches : Grid.Reaches registry.config registry.world request registry.state path
  /-- The grants. -/
  allowed : Grid.gridArtifactAllowed request.headers path = .done true

/-- `HEAD` answers 200 where the object is there, and where `GET` returns its bytes. -/
structure HeadAgrees (request : Request) (path : Bytes) : Prop where
  /-- The object is there. -/
  exist : AnswersWith 200 (registry.answer (request.withMethod "HEAD")) ↔
    (registry.object path).isSome = true
  /-- `GET` returns it. -/
  get : AnswersWith 200 (registry.answer (request.withMethod "HEAD")) ↔
    ∃ bytes fields, registry.object path = some bytes ∧
      registry.answer (request.withMethod "GET") = .done ⟨200, fields, bytes⟩

end Registry

/-! ## The peers of a registry -/

/-- `cookbook_peer` -/
structure Peer where
  /-- Its name. -/
  peerId : Bytes
  /-- Where it listens. -/
  url : Bytes
  /-- The mode `r`. -/
  redirect : Bool
  deriving DecidableEq

/-- What becomes of a file that the registry does not have. -/
inductive Forwarded
  /-- The client is sent to a peer. -/
  | redirected (peer : Peer) (location : Bytes)
  /-- The bytes of a peer are relayed. -/
  | proxied (peer : Peer) (body : Bytes)
  /-- No peer answered with 200. -/
  | notFound
  deriving DecidableEq

/-- The reply to the client. -/
def Forwarded.reply : Forwarded → Reply
  | .redirected peer location =>
    ⟨307, [(ascii "Location", location), (ascii "X-Cookbook-Source", peer.peerId)], []⟩
  | .proxied peer body =>
    ⟨200, [(ascii "Content-Type", ascii "application/octet-stream"),
      (ascii "X-Cookbook-Source", peer.peerId)], body⟩
  | .notFound => sendError 404 "Not found"

/-- `grid_path`, in its buffer. -/
def gridPath (path : Bytes) : Bytes := (ascii "/grid/artifact/" ++ path).take 2047

/-- The path that a peer is asked for. -/
def askedPath (path : Bytes) : Bytes := (gridPath path).drop (ascii "/grid/artifact/").length

/-- `location`, in its buffer. -/
def Peer.location (peer : Peer) (path : Bytes) : Bytes :=
  (peer.url ++ ascii "/artifact/" ++ path).take 2047

/-- `gresp.body`: an answer over TLS that is empty has none. -/
def Peer.received (peer : Peer) (body : Bytes) : Option Bytes :=
  if ascii "https://" <+: peer.url ∧ body = [] then none else some body

/-- The peers of a registry, and what they are at the time they are asked. -/
structure Network where
  /-- The peers, in the order in which they are asked. -/
  peers : List Peer
  /-- The registry that a peer is, none for a peer that is not reachable. -/
  remote : Peer → Option Registry
  /-- The request that reaches a peer, but for its method. -/
  request : Peer → Request

namespace Network

variable (network : Network) (path : Bytes)

/-- One round of the loop over the peers. -/
def ask (peer : Peer) : Option Forwarded :=
  match network.remote peer with
  | none => none
  | some registry =>
    if peer.redirect then
      match registry.answer ((network.request peer).withMethod "HEAD") with
      | .overrun => none
      | .done reply =>
        if reply.status = 200 then some (.redirected peer (peer.location path)) else none
    else
      match registry.answer ((network.request peer).withMethod "GET") with
      | .overrun => none
      | .done reply =>
        if reply.status = 200 then (peer.received reply.body).map (.proxied peer) else none

/-- The loop over the peers. -/
def fanOut : List Peer → Forwarded
  | [] => .notFound
  | peer :: rest =>
    match network.ask path peer with
    | some forwarded => forwarded
    | none => fanOut rest

/-- Peers are asked where the registry has any, and not for a request that comes from a peer. -/
def seeks (config : Config) (client : Request) : Bool :=
  config.gridEnabled && (Grid.gridGetVia client.headers).isNone

/-- What becomes of a client's request for a file that the registry does not have. -/
def forward (config : Config) (client : Request) : Forwarded :=
  if seeks config client then network.fanOut path network.peers else .notFound

/-- Every reachable peer lets the requests read the path. -/
def Readable : Prop :=
  ∀ peer ∈ network.peers, ∀ registry, network.remote peer = some registry →
    ∀ method ∈ ["HEAD", "GET"],
      registry.Reads ((network.request peer).withMethod method) (askedPath path)

/-- A reachable peer holds the object of the path. -/
def Holds (peer : Peer) : Prop :=
  ∃ registry, network.remote peer = some registry ∧ (registry.object path).isSome = true

/-- A missing file is sought only with a peer that holds it, and given up only where no reachable
peer does. -/
structure ForwardsToHolders (config : Config) (client : Request) : Prop where
  /-- A redirect leads to a peer that holds it. -/
  redirected : ∀ peer location,
    network.forward path config client = .redirected peer location → network.Holds path peer
  /-- A relayed body is of a peer that holds it. -/
  proxied : ∀ peer body,
    network.forward path config client = .proxied peer body → network.Holds path peer
  /-- Nobody holds what is given up. -/
  givenUp : network.forward path config client = .notFound →
    ∀ peer ∈ network.peers, ¬ network.Holds path peer

/-- The state of a peer makes it say that it has a path: one that is asked with `HEAD` says so where
the store fails or the object is not there, one that is asked with `GET` where it is there. -/
def Claims (peer : Peer) : Prop :=
  ∃ registry, network.remote peer = some registry ∧
    if peer.redirect then
      registry.storeFails (network.request peer) = true ∨ registry.object (askedPath path) = none
    else
      registry.storeFails (network.request peer) = false ∧
        ∃ bytes, registry.object (askedPath path) = some bytes ∧
          ¬ (ascii "https://" <+: peer.url ∧ bytes = [])

/-- The first peer that says it has the path is one that holds it, or no peer holds it, and none that
is asked says so. -/
def FirstHolds (config : Config) (client : Request) : Prop :=
  (seeks config client = true ∧ ∃ before peer after, network.peers = before ++ peer :: after ∧
      (∀ earlier ∈ before, ¬ network.Claims path earlier) ∧ network.Claims path peer ∧
      network.Holds path peer) ∨
    ∀ peer ∈ network.peers,
      (seeks config client = true → ¬ network.Claims path peer) ∧ ¬ network.Holds path peer

end Network

/-! ## What a peer answers -/

section Answers

variable {registry : Registry} {request : Request} {path : Bytes}

/-- A signature that is accepted leaves the objects, and takes no operation or two. -/
theorem verifyGridPeerSig_accepted {config : Config} {world : World} {request : Request}
    {state : State}
    (verified : (world.machine.run (Grid.verifyGridPeerSig config request) state).value = true) :
    let after := (world.machine.run (Grid.verifyGridPeerSig config request) state).state
    after.objects = state.objects ∧
      after.ticks = state.ticks + if (Grid.signatureHeaders request.headers).isSome then 2 else 0 := by
  intro after
  unfold Grid.verifyGridPeerSig at verified
  simp only [after]
  unfold Grid.verifyGridPeerSig
  cases signed : Grid.signatureHeaders request.headers with
  | none => exact ⟨rfl, rfl⟩
  | some parts =>
    obtain ⟨origin, sigB64, tsStr⟩ := parts
    simp only [signed, Handler.time, Prog.perform_bind, Machine.run_call_value,
      Machine.run_call_state] at verified ⊢
    split at verified
    · cases verified
    · next fresh =>
      simp only [if_neg fresh, Grid.loadPeerKey, Handler.query, Prog.perform_bind, Prog.call_bind,
        Prog.done_bind, Machine.run_call_state, Machine.run_call_value] at verified ⊢
      generalize (if (List.foldl Grid.peerKeyCb Grid.noPeerKey _).found = true then _
        else none : Option Bytes) = loaded
      cases loaded with
      | none => exact ⟨rfl, rfl⟩
      | some peerPk =>
        simp only
        split
        · exact ⟨rfl, rfl⟩
        · exact ⟨rfl, rfl⟩

/-- The state behind the guards of a request. -/
def Registry.behindGuards (registry : Registry) (request : Request) : State :=
  (registry.world.machine.run (Grid.verifyGridPeerSig registry.config request) registry.state).state

/-- A request that may read a path is answered from the store. -/
theorem Registry.Reads.answer (reads : registry.Reads request path) :
    registry.answer request = .done (registry.world.machine.run
      (Grid.serveGridArtifact registry.config request path) (registry.behindGuards request)).value := by
  have ran := Grid.handleGridArtifact_reached reads.reaches
  unfold Registry.answer
  rw [ran]
  simp only [Grid.checkedGridArtifact, reads.allowed, Machine.run_bind, Machine.run_done]
  rfl

/-- What the store says behind the guards. -/
theorem Registry.Reads.status (reads : registry.Reads request path) :
    registry.world.storeStatus (registry.behindGuards request)
        (Grid.storeKey registry.config.registryId path) =
      if registry.storeFails request then .error
      else if (registry.object path).isSome then .ok else .notFound := by
  obtain ⟨objects, ticks⟩ := verifyGridPeerSig_accepted reads.reaches.verified
  unfold World.storeStatus Registry.storeFails Registry.object Registry.behindGuards
  rw [objects, ticks]

/-- `HEAD` is answered with 200 exactly where the store does not confirm the object. -/
theorem Registry.Reads.head_iff (reads : registry.Reads (request.withMethod "HEAD") path) :
    AnswersWith 200 (registry.answer (request.withMethod "HEAD")) ↔
      registry.storeFails request = true ∨ registry.object path = none := by
  have status := reads.status
  have same : registry.storeFails (request.withMethod "HEAD") = registry.storeFails request := rfl
  rw [same] at status
  rw [reads.answer]
  simp only [Grid.serveGridArtifact, Request.withMethod, if_true, Handler.storeExists,
    Prog.perform_bind, Machine.run_call_value, Machine.run_done]
  have answered : (registry.world.machine.apply
      (.storeExists (Grid.storeKey registry.config.registryId path))
      (registry.behindGuards (request.withMethod "HEAD"))).1 = _ := status
  unfold Request.withMethod at answered
  rw [answered]
  unfold AnswersWith
  cases registry.storeFails request with
  | true => simp
  | false =>
    cases registry.object path with
    | none => simp
    | some bytes => simp

/-- What `GET` answers. -/
theorem Registry.Reads.get (reads : registry.Reads (request.withMethod "GET") path) :
    registry.answer (request.withMethod "GET") = .done (
      if registry.storeFails request then sendError 500 "Storage error"
      else
        match registry.object path with
        | none => sendError 404 "Not found"
        | some bytes =>
          ⟨200, [(ascii "X-Cookbook-Source", registry.config.registryId)], bytes⟩) := by
  have status := reads.status
  have same : registry.storeFails (request.withMethod "GET") = registry.storeFails request := rfl
  rw [same] at status
  have objects := (verifyGridPeerSig_accepted reads.reaches.verified).1
  have differ : ascii "GET" ≠ ascii "HEAD" := by decide
  have got : registry.world.machine.apply
      (.storeGet (Grid.storeKey registry.config.registryId path))
      (registry.behindGuards (request.withMethod "GET")) =
      ((if registry.storeFails request then .error
        else if (registry.object path).isSome then .ok else .notFound,
        (registry.object path).getD []),
        { registry.behindGuards (request.withMethod "GET") with
          ticks := (registry.behindGuards (request.withMethod "GET")).ticks + 1 }) := by
    rw [← status]
    unfold Registry.object
    rw [← objects]
    rfl
  rw [reads.answer]
  unfold Request.withMethod at got ⊢
  simp only [Grid.serveGridArtifact, if_neg differ, if_true, Handler.storeGet,
    Prog.perform_bind, Machine.run_call_value, Machine.run_done, got]
  cases registry.storeFails request with
  | true => rfl
  | false =>
    cases registry.object path with
    | none => rfl
    | some bytes => rfl

/-- `GET` is answered with 200 exactly where the object is there and the store does not fail. -/
theorem Registry.Reads.get_iff (reads : registry.Reads (request.withMethod "GET") path) :
    AnswersWith 200 (registry.answer (request.withMethod "GET")) ↔
      registry.storeFails request = false ∧ (registry.object path).isSome = true := by
  rw [reads.get]
  unfold AnswersWith
  cases registry.storeFails request with
  | true => simp [sendError, sendJson]
  | false =>
    cases registry.object path with
    | none => simp [sendError, sendJson]
    | some bytes => simp

/-- A peer that may be read never answers `HEAD` as it answers `GET`. -/
theorem Registry.headAgrees_never (head : registry.Reads (request.withMethod "HEAD") path)
    (get : registry.Reads (request.withMethod "GET") path) : ¬ registry.HeadAgrees request path := by
  intro agrees
  have exist := head.head_iff.symm.trans agrees.exist
  cases fails : registry.storeFails request with
  | false =>
    rw [fails] at exist
    cases object : registry.object path with
    | none => simp [object] at exist
    | some bytes => simp [object] at exist
  | true =>
    have confirmed := head.head_iff.mpr (.inl fails)
    obtain ⟨bytes, fields, -, answered⟩ := agrees.get.mp confirmed
    have refused := get.get_iff.mp ⟨_, answered, rfl⟩
    rw [fails] at refused
    cases refused.1

end Answers

/-! ## Which peer is chosen -/

section Choice

variable {network : Network} {path : Bytes}

/-- The peer that an answer names. -/
def Forwarded.peer : Forwarded → Option Peer
  | .redirected peer _ => some peer
  | .proxied peer _ => some peer
  | .notFound => none

/-- What one round does: it answers exactly where the peer says that it has the path, and then names
that peer. -/
theorem Network.ask_spec {peer : Peer} (member : peer ∈ network.peers)
    (readable : network.Readable path) :
    (network.Claims path peer ∧
        ∃ forwarded, network.ask path peer = some forwarded ∧ forwarded.peer = some peer) ∨
      ¬ network.Claims path peer ∧ network.ask path peer = none := by
  cases reached : network.remote peer with
  | none =>
    right
    constructor
    · rintro ⟨registry, other, -⟩
      rw [reached] at other
      cases other
    · simp only [Network.ask, reached]
  | some registry =>
    have head := readable peer member registry reached "HEAD" (by simp)
    have get := readable peer member registry reached "GET" (by simp)
    have claims : network.Claims path peer ↔
        if peer.redirect then
          registry.storeFails (network.request peer) = true ∨
            registry.object (askedPath path) = none
        else
          registry.storeFails (network.request peer) = false ∧
            ∃ bytes, registry.object (askedPath path) = some bytes ∧
              ¬ (ascii "https://" <+: peer.url ∧ bytes = []) := by
      constructor
      · rintro ⟨other, same, told⟩
        obtain rfl := Option.some.inj (reached.symm.trans same)
        exact told
      · intro told
        exact ⟨registry, reached, told⟩
    rw [claims]
    simp only [Network.ask, reached]
    cases mode : peer.redirect with
    | true =>
      simp only [if_true]
      have confirmed := head.head_iff
      cases answered : registry.answer ((network.request peer).withMethod "HEAD") with
      | overrun =>
        right
        refine ⟨fun told => ?_, rfl⟩
        obtain ⟨reply, other, -⟩ := confirmed.mpr told
        rw [answered] at other
        cases other
      | done reply =>
        by_cases ok : reply.status = 200
        · left
          refine ⟨confirmed.mp ⟨reply, answered, ok⟩, _, if_pos ok, rfl⟩
        · right
          refine ⟨fun told => ?_, if_neg ok⟩
          obtain ⟨other, same, status⟩ := confirmed.mpr told
          rw [answered] at same
          cases same
          exact ok status
    | false =>
      simp only [Bool.false_eq_true, if_false]
      rw [get.get]
      cases fails : registry.storeFails (network.request peer) with
      | true =>
        right
        exact ⟨by simp, rfl⟩
      | false =>
        cases object : registry.object (askedPath path) with
        | none =>
          right
          exact ⟨by simp, rfl⟩
        | some bytes =>
          simp only [Bool.false_eq_true, if_false, if_true, Peer.received]
          by_cases lost : ascii "https://" <+: peer.url ∧ bytes = []
          · right
            refine ⟨?_, by simp [lost]⟩
            rintro ⟨-, other, same, kept⟩
            cases same
            exact kept lost
          · left
            exact ⟨⟨trivial, bytes, rfl, lost⟩, .proxied peer bytes, by simp [lost], rfl⟩

/-- The loop ends at the first peer that says it has the path. -/
theorem Network.fanOut_spec (readable : network.Readable path) (asked : List Peer)
    (members : ∀ peer ∈ asked, peer ∈ network.peers) :
    (∃ before peer after, asked = before ++ peer :: after ∧
        (∀ earlier ∈ before, ¬ network.Claims path earlier) ∧ network.Claims path peer ∧
        (network.fanOut path asked).peer = some peer) ∨
      (∀ peer ∈ asked, ¬ network.Claims path peer) ∧ network.fanOut path asked = .notFound := by
  induction asked with
  | nil => exact .inr ⟨by simp, rfl⟩
  | cons peer rest ih =>
    rcases Network.ask_spec (members peer (by simp)) readable with
      ⟨claims, forwarded, answered, named⟩ | ⟨silent, passed⟩
    · left
      refine ⟨[], peer, rest, rfl, by simp, claims, ?_⟩
      simp only [Network.fanOut, answered]
      exact named
    · have later : network.fanOut path (peer :: rest) = network.fanOut path rest := by
        simp only [Network.fanOut, passed]
      rw [later]
      rcases ih fun other inside => members other (List.mem_cons_of_mem _ inside) with
        ⟨before, chosen, after, split, quiet, claims, named⟩ | ⟨quiet, none⟩
      · left
        refine ⟨peer :: before, chosen, after, by rw [split]; rfl, ?_, claims, named⟩
        intro earlier inside
        rcases List.mem_cons.mp inside with rfl | inside
        · exact silent
        · exact quiet earlier inside
      · right
        refine ⟨?_, none⟩
        intro other inside
        rcases List.mem_cons.mp inside with rfl | inside
        · exact silent
        · exact quiet other inside

/-- A split of a list at the first element with a property is the only one. -/
theorem split_unique {α : Type} {p : α → Prop} {before before' after after' : List α} {x x' : α}
    (same : before ++ x :: after = before' ++ x' :: after') (quiet : ∀ y ∈ before, ¬ p y)
    (quiet' : ∀ y ∈ before', ¬ p y) (holds : p x) (holds' : p x') : x = x' := by
  induction before generalizing before' with
  | nil =>
    cases before' with
    | nil => exact (List.cons.inj same).1
    | cons y rest =>
      obtain rfl : x = y := (List.cons.inj same).1
      exact absurd holds (quiet' x (by simp))
  | cons z front ih =>
    cases before' with
    | nil =>
      obtain rfl : z = x' := (List.cons.inj same).1
      exact absurd holds' (quiet z (by simp))
    | cons y rest =>
      exact ih (List.cons.inj same).2 (fun w inside => quiet w (List.mem_cons_of_mem _ inside))
        fun w inside => quiet' w (List.mem_cons_of_mem _ inside)

/-- A missing file is sought rightly exactly where the first peer that says it has it holds it, or no
peer holds it, and none that is asked says so. -/
theorem Network.forwardsToHolders_iff (config : Config) (client : Request)
    (readable : network.Readable path) :
    network.ForwardsToHolders path config client ↔ network.FirstHolds path config client := by
  cases seeks : Network.seeks config client with
  | false =>
    have lost : network.forward path config client = .notFound := by
      unfold Network.forward
      rw [seeks]
      rfl
    constructor
    · intro forwards
      right
      intro peer member
      exact ⟨by simp [seeks], forwards.givenUp lost peer member⟩
    · rintro (⟨asked, -⟩ | silent)
      · rw [seeks] at asked
        cases asked
      · constructor
        · intro peer location chosen
          rw [lost] at chosen
          cases chosen
        · intro peer body chosen
          rw [lost] at chosen
          cases chosen
        · intro _ peer member
          exact (silent peer member).2
  | true =>
    have loop : network.forward path config client = network.fanOut path network.peers := by
      unfold Network.forward
      rw [seeks]
      rfl
    rcases Network.fanOut_spec readable network.peers (fun _ member => member) with
      ⟨before, peer, after, split, quiet, claims, named⟩ | ⟨quiet, none⟩
    · rw [← loop] at named
      constructor
      · intro forwards
        left
        refine ⟨seeks, before, peer, after, split, quiet, claims, ?_⟩
        cases chosen : network.forward path config client with
        | redirected other location =>
          rw [chosen] at named
          obtain rfl := Option.some.inj named
          exact forwards.redirected _ location chosen
        | proxied other body =>
          rw [chosen] at named
          obtain rfl := Option.some.inj named
          exact forwards.proxied _ body chosen
        | notFound =>
          rw [chosen] at named
          cases named
      · rintro (⟨-, before', peer', after', split', quiet', claims', holds⟩ | silent)
        · have same : peer = peer' :=
            split_unique (split.symm.trans split') quiet quiet' claims claims'
          subst same
          constructor
          · intro other location chosen
            rw [chosen] at named
            obtain rfl := Option.some.inj named
            exact holds
          · intro other body chosen
            rw [chosen] at named
            obtain rfl := Option.some.inj named
            exact holds
          · intro lost
            rw [lost] at named
            cases named
        · exact absurd claims ((silent peer (by rw [split]; simp)).1 seeks)
    · rw [← loop] at none
      constructor
      · intro forwards
        right
        intro peer member
        exact ⟨fun _ => quiet peer member, forwards.givenUp none peer member⟩
      · rintro (⟨-, before, peer, after, split, -, claims, -⟩ | silent)
        · exact absurd claims (quiet peer (by rw [split]; simp))
        · constructor
          · intro peer location chosen
            rw [none] at chosen
            cases chosen
          · intro peer body chosen
            rw [none] at chosen
            cases chosen
          · intro _ peer member
            exact (silent peer member).2

end Choice

/-! ## Files that only peers have -/

/-- A `GET` of a file that the registry does not have is answered by its peers. -/
theorem getArtifact_forwarded (config : Config) (printNumber : Bytes → Bytes) (world : World)
    (network : Network) (client : Request) (path : Bytes) (file : ArtifactPath) (state : State)
    (absent : state.objects.get (Grid.storeKey config.registryId path) = none)
    (reads : world.storeFails state.ticks = false) :
    (world.machine.run (getArtifact config printNumber
      (.done (network.forward path config client).reply) path file) state).value =
        (network.forward path config client).reply := by
  have status : world.storeStatus state (Grid.storeKey config.registryId path) = .notFound := by
    simp [World.storeStatus, reads, absent]
  simp only [getArtifact, Handler.storeGet, Prog.perform_bind, Machine.run_call_value,
    World.machine, World.apply, status, Machine.run_done]

/-- No peer that may be read answers `HEAD` as it answers `GET`, and a missing file is sought rightly
exactly where the first peer that says it has it holds it, or no peer holds it, and none that is asked
says so. -/
theorem peers_agree_iff (path : Bytes) :
    (∀ (registry : Registry) (request : Request),
      registry.Reads (request.withMethod "HEAD") path →
      registry.Reads (request.withMethod "GET") path → ¬ registry.HeadAgrees request path) ∧
    ∀ (network : Network) (config : Config) (client : Request), network.Readable path →
      (network.ForwardsToHolders path config client ↔ network.FirstHolds path config client) :=
  ⟨fun _ _ head get => Registry.headAgrees_never head get,
    fun _ config client readable => Network.forwardsToHolders_iff config client readable⟩

/-- A registry that holds one object. -/
def oneObjectRegistry : Registry where
  config := Grid.openConfig
  world := Grid.quietWorld
  state := ⟨.empty, [(ascii "central/objects/4f2a91.o", ascii "secret")], [], [], 0⟩

/-- Two peers that are redirected to: one holds the object, the other holds nothing. -/
def twoPeers : Network where
  peers := [⟨ascii "full", ascii "http://full:80", true⟩,
    ⟨ascii "empty", ascii "http://empty:80", true⟩]
  remote peer :=
    if peer.peerId = ascii "full" then some oneObjectRegistry
    else some { oneObjectRegistry with state := ⟨.empty, [], [], [], 0⟩ }
  request _ := Grid.cachedObjectRequest

/-- The two peers let the path be read. -/
theorem twoPeers_readable : twoPeers.Readable (ascii "objects/4f2a91.o") := by
  intro peer member registry reached method chosen
  simp only [twoPeers, List.mem_cons, List.not_mem_nil, or_false] at member chosen
  rcases member with rfl | rfl <;> cases reached <;>
    rcases (by simpa using chosen : method = "HEAD" ∨ method = "GET") with rfl | rfl <;>
    exact ⟨⟨by decide +kernel, by decide +kernel, by decide +kernel, by decide +kernel⟩,
      by decide +kernel⟩

/-- The peer that holds the object denies it, and the client is sent to the one that does not. -/
theorem emptyPeer_chosen :
    twoPeers.Readable (ascii "objects/4f2a91.o") ∧
    ¬ oneObjectRegistry.HeadAgrees Grid.cachedObjectRequest (ascii "objects/4f2a91.o") ∧
    ¬ twoPeers.ForwardsToHolders (ascii "objects/4f2a91.o") Grid.openConfig
      { Grid.cachedObjectRequest with headers := [] } := by
  refine ⟨twoPeers_readable, ?_, ?_⟩
  · intro agrees
    obtain ⟨reply, answered, status⟩ := agrees.exist.mpr (by decide +kernel)
    have denied : oneObjectRegistry.answer (Grid.cachedObjectRequest.withMethod "HEAD") =
        .done ⟨404, [], []⟩ := by decide +kernel
    rw [denied] at answered
    cases answered
    cases status
  · intro forwards
    have chosen : twoPeers.forward (ascii "objects/4f2a91.o") Grid.openConfig
        { Grid.cachedObjectRequest with headers := [] } =
        .redirected ⟨ascii "empty", ascii "http://empty:80", true⟩
          (ascii "http://empty:80/artifact/objects/4f2a91.o") := by decide +kernel
    obtain ⟨registry, reached, there⟩ := forwards.redirected _ _ chosen
    cases reached
    revert there
    decide +kernel

/-- The two peers satisfy what is asked of them. -/
theorem peers_agree_twoPeers :
    ¬ oneObjectRegistry.HeadAgrees Grid.cachedObjectRequest (ascii "objects/4f2a91.o") ∧
    (twoPeers.ForwardsToHolders (ascii "objects/4f2a91.o") Grid.openConfig
        { Grid.cachedObjectRequest with headers := [] } ↔
      twoPeers.FirstHolds (ascii "objects/4f2a91.o") Grid.openConfig
        { Grid.cachedObjectRequest with headers := [] }) :=
  ⟨(peers_agree_iff (ascii "objects/4f2a91.o")).1 oneObjectRegistry Grid.cachedObjectRequest
      ⟨⟨by decide +kernel, by decide +kernel, by decide +kernel, by decide +kernel⟩,
        by decide +kernel⟩
      ⟨⟨by decide +kernel, by decide +kernel, by decide +kernel, by decide +kernel⟩,
        by decide +kernel⟩,
    (peers_agree_iff (ascii "objects/4f2a91.o")).2 twoPeers Grid.openConfig _ twoPeers_readable⟩

end Cookbook.Server
