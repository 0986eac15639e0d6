import Cookbook.Library.Text
import Mathlib.Data.List.Nodup

/-!
# Routes

Every request comes to `generic_handler`, which looks for the longest registered pattern that the path
begins with and calls its handler. The scan keeps the best route of those seen; with distinct patterns
that route does not depend on the order in which the routes were registered.
-/
namespace Cookbook.Http

open Library.Text

/-! ## Registration -/

/-- A handler: the context behind it, and whether it has sent a status. -/
abbrev RouteHandler (Ctx : Type) := Ctx → Ctx × Bool

/-- `route_entry` -/
structure Route (Ctx : Type) where
  /-- `pattern` -/
  pattern : Bytes
  /-- `handler` -/
  handler : RouteHandler Ctx

variable {Ctx : Type}

/-- The pattern as the string functions see it. -/
def Route.text (route : Route Ctx) : Bytes := cString route.pattern

/-- `MAX_ROUTES` -/
def maxRoutes : Nat := 64

/-- `cookbook_http_add_route` -/
def addRoute (routes : List (Route Ctx)) (route : Route Ctx) : List (Route Ctx) :=
  if maxRoutes ≤ routes.length then routes else routes ++ [route]

/-- The table behind a list of registrations. -/
def registered (routes : List (Route Ctx)) : List (Route Ctx) := routes.foldl addRoute []

/-! ## Dispatch -/

/-- `strncmp(a, b, n) == 0` -/
def sameFront (a b : Bytes) (n : Nat) : Bool := (cString a).take n == (cString b).take n

/-- The best route so far and the length of its pattern. -/
abbrev BestRoute (Ctx : Type) := Option (Route Ctx) × Nat

/-- One turn of the loop over the routes. -/
def considerRoute (path : Bytes) (best : BestRoute Ctx) (route : Route Ctx) : BestRoute Ctx :=
  let plen := route.text.length
  if sameFront path route.pattern plen = true ∧ best.2 < plen then (some route, plen) else best

/-- The loop over the routes. -/
def bestRoute (routes : List (Route Ctx)) (path : Bytes) : Option (Route Ctx) :=
  (routes.foldl (considerRoute path) (none, 0)).1

/-- What a handler and its caller do to the context of a request. -/
structure RouteContext (Ctx : Type) where
  /-- `http_ctx_respond_json` -/
  respondJson : Nat → Bytes → Ctx → Ctx
  /-- `http_ctx_stream_end` -/
  streamEnd : Ctx → Ctx
  /-- `http_ctx_respond` -/
  respond : Nat → Bytes → Ctx → Ctx

/-- Behind the handler: the open stream is ended, or an empty response is sent. -/
def RouteContext.finish (context : RouteContext Ctx) (handled : Ctx × Bool) : Ctx :=
  if handled.2 then context.streamEnd handled.1 else context.respond 200 [] handled.1

/-- The answer to a path of no route. -/
def RouteContext.notFound (context : RouteContext Ctx) (ctx : Ctx) : Ctx :=
  context.respondJson 404 (ascii "\x7b\"error\":\"Not Found\"\x7d\n") ctx

/-- `generic_handler`: a request without a path has the path `/`. -/
def genericHandler (context : RouteContext Ctx) (routes : List (Route Ctx)) (path : Option Bytes)
    (ctx : Ctx) : Ctx :=
  match bestRoute routes (path.getD (ascii "/")) with
  | none => context.notFound ctx
  | some route => context.finish (route.handler ctx)

/-! ## The longest match -/

/-- The pattern of a route is a prefix of the path. -/
def Route.Matches (route : Route Ctx) (path : Bytes) : Prop := route.text <+: cString path

/-- The route matches, and no other one that matches has a pattern as long. -/
structure LongestMatch (routes : List (Route Ctx)) (path : Bytes) (route : Route Ctx) : Prop where
  /-- The route is registered. -/
  member : route ∈ routes
  /-- Its pattern is a prefix of the path. -/
  found : route.Matches path
  /-- Every other match is shorter. -/
  longest : ∀ other ∈ routes, other.Matches path → other ≠ route → other.text.length < route.text.length

/-- The comparison of the loop finds the prefixes. -/
theorem sameFront_iff (path : Bytes) (route : Route Ctx) :
    sameFront path route.pattern route.text.length = true ↔ route.Matches path := by
  unfold sameFront Route.Matches Route.text
  rw [beq_iff_eq, List.take_length, List.prefix_iff_eq_take]
  exact eq_comm

/-- What the loop knows of the routes it has seen. -/
structure BestOf (seen : List (Route Ctx)) (path : Bytes) (best : BestRoute Ctx) : Prop where
  /-- The length is that of the best route. -/
  size : best.2 = (best.1.map fun route => route.text.length).getD 0
  /-- The best route has been seen and matches. -/
  found : ∀ route ∈ best.1, route ∈ seen ∧ route.Matches path
  /-- No match that has been seen is longer. -/
  most : ∀ route ∈ seen, route.Matches path → route.text.length ≤ best.2

/-- One turn keeps what the loop knows. -/
theorem considerRoute_best {seen : List (Route Ctx)} {path : Bytes} {best : BestRoute Ctx}
    (known : BestOf seen path best) (route : Route Ctx) :
    BestOf (seen ++ [route]) path (considerRoute path best route) := by
  unfold considerRoute
  dsimp only
  split
  · rename_i longer
    obtain ⟨front, more⟩ := longer
    refine ⟨rfl, ?_, ?_⟩
    · rintro other ⟨⟩
      exact ⟨by simp, (sameFront_iff path route).mp front⟩
    · intro other member found
      rcases List.mem_append.mp member with before | last
      · exact (known.most other before found).trans more.le
      · rw [List.mem_singleton.mp last]
  · rename_i no
    refine ⟨known.size, fun other inside => ?_, ?_⟩
    · obtain ⟨member, found⟩ := known.found other inside
      exact ⟨List.mem_append_left _ member, found⟩
    · intro other member found
      rcases List.mem_append.mp member with before | last
      · exact known.most other before found
      · rw [List.mem_singleton.mp last] at found ⊢
        by_contra longer
        exact no ⟨(sameFront_iff path route).mpr found, Nat.lt_of_not_le longer⟩

/-- The whole loop knows the best of all routes. -/
theorem bestRoute_best (routes : List (Route Ctx)) (path : Bytes) :
    BestOf routes path (routes.foldl (considerRoute path) (none, 0)) := by
  induction routes using List.reverseRecOn with
  | nil => exact ⟨rfl, by rintro route ⟨⟩, by rintro route ⟨⟩⟩
  | append_singleton routes route ih =>
    rw [List.foldl_append, List.foldl_cons, List.foldl_nil]
    exact considerRoute_best ih route

/-- A table that is not full takes every route. -/
theorem registered_eq {routes : List (Route Ctx)} (few : routes.length ≤ maxRoutes) :
    registered routes = routes := by
  induction routes using List.reverseRecOn with
  | nil => rfl
  | append_singleton routes route ih =>
    rw [List.length_append, List.length_singleton] at few
    have before := ih (by omega)
    unfold registered at before ⊢
    rw [List.foldl_append, before, List.foldl_cons, List.foldl_nil, addRoute, if_neg (by omega)]

section Distinct

variable {routes : List (Route Ctx)} {path : Bytes}

/-- Matches of one length are one route. -/
theorem matches_eq (distinct : (routes.map Route.text).Nodup) {left right : Route Ctx}
    (leftMember : left ∈ routes) (rightMember : right ∈ routes) (leftFound : left.Matches path)
    (rightFound : right.Matches path) (length : left.text.length = right.text.length) :
    left = right := by
  have order : left.text <+: right.text :=
    List.prefix_of_prefix_length_le leftFound rightFound (Nat.le_of_eq length)
  exact List.inj_on_of_nodup_map distinct leftMember rightMember (order.eq_of_length length)

/-- The loop finds a route exactly if it is the longest match. -/
theorem bestRoute_eq_some_iff (distinct : (routes.map Route.text).Nodup)
    (filled : ∀ route ∈ routes, route.text ≠ []) (route : Route Ctx) :
    bestRoute routes path = some route ↔ LongestMatch routes path route := by
  have known := bestRoute_best routes path
  constructor
  · intro found
    obtain ⟨member, fits⟩ := known.found route found
    refine ⟨member, fits, fun other inside also different => ?_⟩
    have size : (routes.foldl (considerRoute path) (none, 0)).2 = route.text.length := by
      have counted := known.size
      rw [show (routes.foldl (considerRoute path) (none, 0)).1 = some route from found] at counted
      exact counted
    have most := known.most other inside also
    rw [size] at most
    refine lt_of_le_of_ne most fun same => different ?_
    exact matches_eq distinct inside member also fits same
  · intro longest
    have positive : 0 < route.text.length :=
      List.length_pos_of_ne_nil (filled route longest.member)
    have most := known.most route longest.member longest.found
    cases best : bestRoute routes path with
    | none =>
      have size := known.size
      rw [show (routes.foldl (considerRoute path) (none, 0)).1 = none from best] at size
      have zero : (routes.foldl (considerRoute path) (none, 0)).2 = 0 := size
      omega
    | some other =>
      obtain ⟨member, fits⟩ := known.found other best
      by_contra different
      have shorter := longest.longest other member fits fun same => different (by rw [same])
      have size : (routes.foldl (considerRoute path) (none, 0)).2 = other.text.length := by
        have counted := known.size
        rw [show (routes.foldl (considerRoute path) (none, 0)).1 = some other from best] at counted
        exact counted
      omega

/-- The loop finds no route exactly if no pattern is a prefix of the path. -/
theorem bestRoute_eq_none_iff (filled : ∀ route ∈ routes, route.text ≠ []) :
    bestRoute routes path = none ↔ ∀ route ∈ routes, ¬ route.Matches path := by
  have known := bestRoute_best routes path
  constructor
  · intro best route member fits
    have size := known.size
    rw [show (routes.foldl (considerRoute path) (none, 0)).1 = none from best] at size
    have zero : (routes.foldl (considerRoute path) (none, 0)).2 = 0 := size
    have most := known.most route member fits
    have positive := List.length_pos_of_ne_nil (filled route member)
    omega
  · intro no
    cases best : bestRoute routes path with
    | none => rfl
    | some route =>
      obtain ⟨member, fits⟩ := known.found route best
      exact absurd fits (no route member)

end Distinct

/-- The longest match of a table is that of the table in another order. -/
theorem longestMatch_perm {routes order : List (Route Ctx)} (same : routes.Perm order) {path : Bytes}
    {route : Route Ctx} (longest : LongestMatch routes path route) : LongestMatch order path route :=
  ⟨same.mem_iff.mp longest.member, longest.found,
    fun other member => longest.longest other (same.mem_iff.mpr member)⟩

/-- The loop finds the same route in every order. -/
theorem bestRoute_perm {routes order : List (Route Ctx)} (same : routes.Perm order)
    (distinct : (routes.map Route.text).Nodup) (filled : ∀ route ∈ routes, route.text ≠ [])
    (path : Bytes) : bestRoute order path = bestRoute routes path := by
  have otherDistinct : (order.map Route.text).Nodup := (same.map Route.text).nodup_iff.mp distinct
  have otherFilled : ∀ route ∈ order, route.text ≠ [] := fun route member =>
    filled route (same.mem_iff.mpr member)
  cases best : bestRoute routes path with
  | none =>
    rw [bestRoute_eq_none_iff filled] at best
    exact (bestRoute_eq_none_iff otherFilled).mpr fun route member =>
      best route (same.mem_iff.mpr member)
  | some route =>
    rw [bestRoute_eq_some_iff distinct filled] at best
    exact (bestRoute_eq_some_iff otherDistinct otherFilled route).mpr (longestMatch_perm same best)

/-- A request goes to the handler of the longest pattern that its path begins with, and is answered
with 404 exactly if there is none; in whatever order the routes were registered. -/
theorem genericHandler_longest (context : RouteContext Ctx) (routes : List (Route Ctx))
    (few : routes.length ≤ maxRoutes) (distinct : (routes.map Route.text).Nodup)
    (filled : ∀ route ∈ routes, route.text ≠ []) (path : Bytes) (ctx : Ctx) :
    ((∀ route ∈ routes, ¬ route.Matches path) →
      genericHandler context (registered routes) (some path) ctx = context.notFound ctx) ∧
    ((∃ route ∈ routes, route.Matches path) →
      ∃! route, LongestMatch routes path route ∧
        genericHandler context (registered routes) (some path) ctx =
          context.finish (route.handler ctx)) ∧
    (bestRoute (registered routes) path = none ↔ ∀ route ∈ routes, ¬ route.Matches path) ∧
    ∀ order : List (Route Ctx), routes.Perm order →
      genericHandler context (registered order) (some path) ctx =
        genericHandler context (registered routes) (some path) ctx := by
  have whole := registered_eq few
  unfold genericHandler
  rw [whole, Option.getD_some]
  refine ⟨fun no => ?_, fun ⟨route, member, fits⟩ => ?_, bestRoute_eq_none_iff filled,
    fun order same => ?_⟩
  · rw [(bestRoute_eq_none_iff filled).mpr no]
  · cases best : bestRoute routes path with
    | none => exact absurd fits ((bestRoute_eq_none_iff filled).mp best route member)
    | some found =>
      have longest := (bestRoute_eq_some_iff distinct filled found).mp best
      refine ⟨found, ⟨longest, rfl⟩, fun other also => ?_⟩
      have again := (bestRoute_eq_some_iff distinct filled other).mpr also.1
      exact Option.some.inj (again.symm.trans best)
  · rw [registered_eq (same.length_eq ▸ few), bestRoute_perm same distinct filled]

/-- The artifact route is found in front of the shorter one, and also when it was registered first. -/
theorem genericHandler_longest_artifact :
    genericHandler ⟨fun _ _ _ => 404, id, fun _ _ ctx => ctx⟩
        (registered [⟨ascii "/", fun _ => (1, true)⟩, ⟨ascii "/artifact/", fun _ => (2, true)⟩])
        (some (ascii "/artifact/org")) 0 = 2 ∧
      genericHandler ⟨fun _ _ _ => 404, id, fun _ _ ctx => ctx⟩
        (registered [⟨ascii "/artifact/", fun _ => (2, true)⟩, ⟨ascii "/", fun _ => (1, true)⟩])
        (some (ascii "/artifact/org")) 0 = 2 := by
  have first : genericHandler ⟨fun _ _ _ => 404, id, fun _ _ ctx => ctx⟩
      (registered [⟨ascii "/", fun _ => (1, true)⟩, ⟨ascii "/artifact/", fun _ => (2, true)⟩])
      (some (ascii "/artifact/org")) 0 = 2 := rfl
  obtain ⟨-, -, -, order⟩ := genericHandler_longest
    ⟨fun _ _ _ => 404, id, fun _ _ ctx => ctx⟩
    [⟨ascii "/", fun _ => (1, true)⟩, ⟨ascii "/artifact/", fun _ => (2, true)⟩]
    (by decide) (by decide) (by decide) (ascii "/artifact/org") 0
  exact ⟨first, (order _ (List.Perm.swap _ _ [])).trans first⟩

end Cookbook.Http
