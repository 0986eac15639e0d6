import Cookbook.Library.Text
import Cookbook.Library.PrefixMap

/-!
# Permission checking

`authCheck` decides an operation on a group from the JSON text of a grants map and an exclude
map. It scans the text with `walkJsonMap`, which is no JSON parser: it jumps from quote to quote
and hands every key and value to a callback. The callbacks keep the longest grant seen so far and
the first exclusion.
-/
namespace Cookbook.Policy

open Library.Text Library.PrefixMap

/-! ## Walking a map's text -/

variable {σ : Type}

/-- The blanks skipped in front of a value. -/
def isBlank (c : UInt8) : Bool := c == space || c == tab

/-- The characters of an unquoted value, which ends at a comma or a closing brace. -/
def isBareValue (c : UInt8) : Bool := c != comma && c != closeBrace

/-- `if (fn(...)) return;`: the walk goes on unless the callback stops it. -/
def resume (answer : σ × Bool) (next : σ → σ) : σ :=
  if answer.2 then answer.1 else next answer.1

/-- The loop of `walk_json_map` over the bytes still to be read. The callback returns the new
user state and whether the walk stops. -/
def walkJsonMapFrom (fn : σ → Bytes → Bytes → σ × Bool) : Nat → Bytes → σ → σ
  | 0, _, user => user
  | fuel + 1, json, user =>
    match json.dropWhile (· != quote) with
    | [] => user
    | _ :: afterOpen =>
      match afterOpen.dropWhile (· != quote) with
      | [] => user
      | _ :: afterKey =>
        let key := afterOpen.takeWhile (· != quote)
        match afterKey.dropWhile (· != colon) with
        | [] => user
        | _ :: afterColon =>
          match afterColon.dropWhile isBlank with
          | [] => user
          | c :: rest =>
            if c = quote then
              let val := rest.takeWhile (· != quote)
              let after := (rest.dropWhile (· != quote)).drop 1
              resume (fn user key val) (walkJsonMapFrom fn fuel after)
            else if c = 0x74 then
              -- The value `true` is handed on as its four letters.
              resume (fn user key (ascii "true"))
                (walkJsonMapFrom fn fuel ((c :: rest).dropWhile isBareValue))
            else walkJsonMapFrom fn fuel ((c :: rest).dropWhile isBareValue) user

/-- `walk_json_map` over the bytes before `json_len`; every round consumes at least one. -/
def walkJsonMap (fn : σ → Bytes → Bytes → σ × Bool) (json : Bytes) (user : σ) : σ :=
  walkJsonMapFrom fn json.length json user

/-- The walk of a list of entries: the callback sees them in order until it stops. -/
def feed (fn : σ → Bytes → Bytes → σ × Bool) : List (Bytes × Bytes) → σ → σ
  | [], user => user
  | (key, val) :: rest, user => resume (fn user key val) (feed fn rest)

/-! ## The callbacks -/

/-- The test both callbacks make: the key is a prefix of the group that ends at its end or before
a dot. -/
def keyMatches (key groupId : Bytes) : Bool :=
  decide (key.length ≤ groupId.length) && (groupId.take key.length == key) &&
    (decide (key.length = groupId.length) || groupId[key.length]? == some dot)

/-- `grant_match_ctx` without the group: the value kept so far, null before any match, and the
length of its key. -/
structure GrantMatchCtx where
  /-- The value of the best match. -/
  bestVal : Option Bytes
  /-- The length of the best matching key, zero for the wildcard. -/
  bestPrefixLen : Nat

/-- `grant_match_cb`: the longest matching key wins, and the wildcard only fills the gap. -/
def grantMatchCb (groupId : Bytes) (ctx : GrantMatchCtx) (key val : Bytes) :
    GrantMatchCtx × Bool :=
  if key = [star] then
    if ctx.bestPrefixLen = 0 then ({ ctx with bestVal := some val }, false) else (ctx, false)
  else if keyMatches key groupId then
    if ctx.bestPrefixLen < key.length then
      ({ bestVal := some val, bestPrefixLen := key.length }, false)
    else (ctx, false)
  else (ctx, false)

/-- `exclude_match_cb`: the first matching key excludes the group and stops the walk. -/
def excludeMatchCb (groupId : Bytes) (excluded : Bool) (key _val : Bytes) : Bool × Bool :=
  if keyMatches key groupId then (true, true) else (excluded, false)

/-! ## The check -/

/-- `"grants":{` -/
def grantsMarker : Bytes := ascii "\"grants\":\x7b"

/-- `"exclude":{` -/
def excludeMarker : Bytes := ascii "\"exclude\":\x7b"

/-- The start of the grants map: behind the marker, or the whole text as a bare map. -/
def grantsStart (grantsJson : Bytes) : Bytes :=
  match strstr grantsMarker grantsJson with
  | some found => found.drop grantsMarker.length
  | none => grantsJson

/-- The start of the exclude map: behind the marker, or behind the first brace of a separate
exclude argument. -/
def excludeStart (grantsJson : Bytes) (excludeJson : Option Bytes) : Option Bytes :=
  match strstr excludeMarker (excludeJson.getD grantsJson) with
  | some found => some (found.drop excludeMarker.length)
  | none =>
    match excludeJson with
    | none => none
    | some json => (strchr openBrace json).map (List.drop 1)

/-- Whether the exclude map denies the group. A map without a closing brace denies nothing. -/
def excludedBy (grantsJson : Bytes) (excludeJson : Option Bytes) (groupId : Bytes) : Bool :=
  match excludeStart grantsJson excludeJson with
  | none => false
  | some start =>
    if closeBrace ∈ start then
      walkJsonMap (excludeMatchCb groupId) (start.takeWhile (· != closeBrace)) false
    else false

/-- `cookbook_auth_check` -/
def authCheck (grantsJson excludeJson groupId : Option Bytes) (op : UInt8) : Bool :=
  match grantsJson, groupId with
  | some grants, some group =>
    if closeBrace ∈ grantsStart grants then
      let ctx := walkJsonMap (grantMatchCb group)
        ((grantsStart grants).takeWhile (· != closeBrace)) ⟨none, 0⟩
      match ctx.bestVal with
      | none => false
      | some val =>
        if op ∈ val then !excludedBy grants excludeJson group else false
    else false
  | _, _ => false

end Cookbook.Policy
