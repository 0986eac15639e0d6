import Cookbook.Library.Buffer
import Cookbook.Policy.Access
import Mathlib.Data.List.Basic

/-!
# Grants forwarded between registries

A registry that asks a peer for an artifact sends the caller's grants and exclusions as two request
headers. `buildGridGrantHeaders` writes them from the claims of a token; the peer reads them back
into JSON text with `parseGridGrantsHeader` and `parseGridExcludeHeader` and decides with the same
`authCheck`.
-/
namespace Cookbook.Grid

open Library.Text Library.PrefixMap Policy

/-! ## Writing the headers -/

/-- `X-Cookbook-Grid-Grants` -/
def grantsHeaderName : Bytes := ascii "X-Cookbook-Grid-Grants"

/-- `X-Cookbook-Grid-Exclude` -/
def excludeHeaderName : Bytes := ascii "X-Cookbook-Grid-Exclude"

/-- The end of a header line. -/
def crlf : Bytes := [carriageReturn, newline]

/-- The characters skipped between two entries. -/
def isGap (c : UInt8) : Bool := c == space || c == newline || c == comma

/-- A comma in front of every entry but the first. -/
def separate (hdrs : Bytes) (first : Bool) : Bytes := if first then hdrs else hdrs ++ [comma]

/-- The grants loop of `build_grid_grant_headers`, at the position behind the opening brace or
behind an entry. -/
def writeGrants : Nat → Bytes → Bytes → Bool → Bytes
  | 0, _, hdrs, _ => hdrs
  | fuel + 1, p, hdrs, first =>
    if p.head? = some closeBrace then hdrs
    else
      match p.dropWhile isGap with
      | [] => hdrs
      | c :: afterOpen =>
        if c = quote then
          match strchr quote afterOpen with
          | none => hdrs
          | some kend =>
            let key := afterOpen.takeWhile (· != quote)
            match (kend.drop 1).dropWhile (fun c => c == space || c == colon) with
            | [] => hdrs
            | c :: afterVal =>
              if c = quote then
                match strchr quote afterVal with
                | none => hdrs
                | some vend =>
                  let val := afterVal.takeWhile (· != quote)
                  writeGrants fuel (vend.drop 1) (separate hdrs first ++ key ++ colon :: val) false
              else hdrs
        else hdrs

/-- The exclude loop of `build_grid_grant_headers`. -/
def writeExcludes : Nat → Bytes → Bytes → Bool → Bytes
  | 0, _, hdrs, _ => hdrs
  | fuel + 1, p, hdrs, first =>
    if p.head? = some closeBrace then hdrs
    else
      match p.dropWhile isGap with
      | [] => hdrs
      | c :: afterOpen =>
        if c = quote then
          match strchr quote afterOpen with
          | none => hdrs
          | some kend =>
            let key := afterOpen.takeWhile (· != quote)
            writeExcludes fuel ((kend.drop 1).dropWhile isBareValue)
              (separate hdrs first ++ key) false
        else hdrs

/-- Run a writer's loop behind the first opening brace of a map. -/
def behindBrace (write : Nat → Bytes → Bytes → Bool → Bytes) (json hdrs : Bytes) : Bytes :=
  match strchr openBrace json with
  | none => hdrs
  | some p => write json.length (p.drop 1) hdrs true

/-- The fields of `cookbook_jwt_claims` that are forwarded. -/
structure Claims where
  /-- The token format. -/
  version : Nat
  /-- The text of the grants object. -/
  grantsJson : Option Bytes
  /-- The text of the exclude object. -/
  excludeJson : Option Bytes

/-- The size of the header buffer. -/
def headerCap : Nat := 2048

/-- `build_grid_grant_headers`: null for a token without grants. The position in the buffer
advances by the untruncated lengths, so a text that does not fit is terminated outside it. -/
def buildGridGrantHeaders (claims : Claims) : Outcome (Option Bytes) :=
  match claims.grantsJson with
  | none => .done none
  | some grants =>
    if claims.version ≠ 2 then .done none
    else
      let hdrs := behindBrace writeGrants grants (grantsHeaderName ++ ascii ": ") ++ crlf
      let hdrs :=
        match claims.excludeJson with
        | none => hdrs
        | some exclude =>
          behindBrace writeExcludes exclude (hdrs ++ excludeHeaderName ++ ascii ": ") ++ crlf
      (fitted headerCap hdrs).bind fun hdrs => .done (some hdrs)

/-! ## The request at the peer -/

/-- The header fields of a request, by name. -/
abbrev Headers := List (Bytes × Bytes)

/-- ASCII letters are compared without case. -/
def lower (c : UInt8) : UInt8 := if 0x41 ≤ c ∧ c ≤ 0x5A then c + 0x20 else c

/-- `strcasecmp(left, right) == 0` -/
def sameName (left right : Bytes) : Bool := left.map lower == right.map lower

/-- The first field of a name. -/
def findHeader (headers : Headers) (name : Bytes) : Option Bytes :=
  (headers.find? fun field => sameName field.1 name).map Prod.snd

/-- `http_headers_set`: the value of a known name is replaced, a new name is appended. -/
def setHeader (headers : Headers) (name value : Bytes) : Headers :=
  match headers with
  | [] => [(name, value)]
  | (known, old) :: rest =>
    if sameName known name then (known, value) :: rest
    else (known, old) :: setHeader rest name value

/-- Fields that are set one after the other. -/
def setHeaders (headers fields : Headers) : Headers :=
  fields.foldl (fun known field => setHeader known field.1 field.2) headers

/-- The header lines of a request, up to the first empty line. Leading spaces of a value are
skipped, a line without a colon is ignored. -/
def parseHeaders : Nat → Bytes → Headers → Headers
  | 0, _, headers => headers
  | fuel + 1, block, headers =>
    match strstr crlf block with
    | none => headers
    | some rest =>
      let line := block.take (block.length - rest.length)
      if line = [] then headers
      else
        let headers :=
          match strchr colon line with
          | none => headers
          | some value =>
            setHeader headers (line.takeWhile (· != colon)) ((value.drop 1).dropWhile (· == space))
        parseHeaders fuel (rest.drop crlf.length) headers

/-- The fields a peer sees for a header block. -/
def receiveHeaders (block : Bytes) : Headers := parseHeaders block.length block []

/-! ## Reading the headers -/

/-- The tokens `strtok_r` cuts from a text at commas: the empty ones are skipped. -/
def tokens (text : Bytes) : List Bytes := (text.splitOn comma).filter (· ≠ [])

/-- The value of a header that is present and not empty. -/
def presentHeader (headers : Headers) (name : Bytes) : Option Bytes :=
  (findHeader headers name).filter (· ≠ [])

/-- The JSON member of one grants token, none without a colon. -/
def grantMember (token : Bytes) : Option Bytes :=
  let tok := token.dropWhile (· == space)
  match strchr colon tok with
  | none => none
  | some value => some (grantItem (tok.takeWhile (· != colon), value.drop 1))

/-- `parse_grid_grants_header` -/
def parseGridGrantsHeader (headers : Headers) : Outcome (Option Bytes) :=
  match presentHeader headers grantsHeaderName with
  | none => .done none
  | some hval =>
    let members := (tokens (snprintf 2048 hval)).filterMap grantMember
    (fitted (hval.length * 3 + 16) (object ([comma].intercalate members))).bind fun json =>
      .done (some json)

/-- `parse_grid_exclude_header` -/
def parseGridExcludeHeader (headers : Headers) : Outcome (Option Bytes) :=
  match presentHeader headers excludeHeaderName with
  | none => .done none
  | some hval =>
    let members := (tokens (snprintf 2048 hval)).map fun token =>
      excludeItem (token.dropWhile (· == space))
    (fitted (hval.length * 3 + 16) (object ([comma].intercalate members))).bind fun json =>
      .done (some json)

/-- `check_grid_auth`: a request without a grants header is open. -/
def checkGridAuth (headers : Headers) (groupId : Bytes) (op : UInt8) : Outcome Bool :=
  (parseGridGrantsHeader headers).bind fun
    | none => .done true
    | some grants =>
      (parseGridExcludeHeader headers).bind fun exclude =>
        .done (authCheck (some grants) exclude (some groupId) op)

/-! ## Setting fields -/

/-- Names that are compared without case differ. -/
def Distinct (fields : Headers) : Prop :=
  fields.Pairwise fun left right => sameName left.1 right.1 = false

/-- A field that is not there yet is put at the end. -/
theorem setHeader_fresh {headers : Headers} {name : Bytes} (value : Bytes)
    (fresh : ∀ field ∈ headers, sameName field.1 name = false) :
    setHeader headers name value = headers ++ [(name, value)] := by
  induction headers with
  | nil => rfl
  | cons field headers ih =>
    have other := fresh field (by simp)
    have rest := ih fun field member => fresh field (by simp [member])
    simp [setHeader, other, rest]

/-- Names that differ from the next one. -/
theorem Distinct.fresh {headers fields : Headers} {field : Bytes × Bytes}
    (distinct : Distinct (headers ++ field :: fields)) :
    ∀ known ∈ headers, sameName known.1 field.1 = false := fun known member =>
  (List.pairwise_append.mp distinct).2.2 known member field (by simp)

/-- A field that is set adds one field when its name is new, and none otherwise. -/
theorem setHeader_length (headers : Headers) (name value : Bytes) :
    (setHeader headers name value).length ≤ headers.length + 1 ∧
      ((setHeader headers name value).length = headers.length + 1 →
        ∀ field ∈ headers, sameName field.1 name = false) := by
  induction headers with
  | nil => exact ⟨le_rfl, fun _ _ member => absurd member List.not_mem_nil⟩
  | cons field headers ih =>
    rw [setHeader]
    by_cases known : sameName field.1 name = true
    · rw [if_pos known]
      refine ⟨by simp, fun grown => ?_⟩
      simp only [List.length_cons] at grown
      omega
    · rw [if_neg known]
      refine ⟨by simpa using ih.1, fun grown => ?_⟩
      have rest := ih.2 (by simpa using grown)
      exact List.forall_mem_cons.mpr ⟨by simpa using known, rest⟩

/-- Fields of different names are set as they stand. -/
theorem setHeaders_distinct {headers fields : Headers} (distinct : Distinct (headers ++ fields)) :
    setHeaders headers fields = headers ++ fields := by
  induction fields generalizing headers with
  | nil => exact (List.append_nil headers).symm
  | cons field fields ih =>
    have placed := setHeader_fresh field.2 distinct.fresh
    rw [List.append_cons] at distinct ⊢
    rw [← ih distinct, setHeaders, List.foldl_cons, placed]
    rfl

/-- Each field that is set adds one at most. -/
theorem setHeaders_length_le (headers fields : Headers) :
    (setHeaders headers fields).length ≤ headers.length + fields.length := by
  induction fields generalizing headers with
  | nil => exact le_rfl
  | cons field fields ih =>
    have first := (setHeader_length headers field.1 field.2).1
    have rest := ih (setHeader headers field.1 field.2)
    rw [setHeaders, List.foldl_cons, List.length_cons]
    exact rest.trans (by omega)

/-- Where each field adds one, their names are different. -/
theorem distinct_of_length {headers fields : Headers} (distinct : Distinct headers)
    (grown : headers.length + fields.length ≤ (setHeaders headers fields).length) :
    Distinct (headers ++ fields) := by
  induction fields generalizing headers with
  | nil => rwa [List.append_nil]
  | cons field fields ih =>
    have first := setHeader_length headers field.1 field.2
    have rest := setHeaders_length_le (setHeader headers field.1 field.2) fields
    have whole : setHeaders headers (field :: fields) =
        setHeaders (setHeader headers field.1 field.2) fields := rfl
    rw [whole, List.length_cons] at grown
    have fresh := first.2 (by omega)
    have placed := setHeader_fresh field.2 fresh
    have longer : Distinct (headers ++ [field]) := by
      refine List.pairwise_append.mpr ⟨distinct, List.pairwise_singleton _ _, ?_⟩
      intro known member other single
      rw [List.mem_singleton.mp single]
      exact fresh known member
    have longest : (setHeader headers field.1 field.2).length = headers.length + 1 := by
      rw [placed, List.length_append, List.length_singleton]
    rw [placed] at grown
    rw [List.append_cons]
    refine ih longer ?_
    rw [List.length_append, List.length_singleton]
    change _ ≤ (setHeaders (headers ++ [(field.1, field.2)]) fields).length
    omega

/-- The values that stand behind some fields are theirs. -/
theorem setHeaders_value {headers fields : Headers} {holds : Bytes → Prop}
    (known : ∀ field ∈ headers, holds field.2) (set : ∀ field ∈ fields, holds field.2) :
    ∀ field ∈ setHeaders headers fields, holds field.2 := by
  induction fields generalizing headers with
  | nil => exact known
  | cons field fields ih =>
    have first : ∀ other ∈ setHeader headers field.1 field.2, holds other.2 := by
      have value := set field (by simp)
      clear ih set
      induction headers with
      | nil => exact List.forall_mem_singleton.mpr value
      | cons head headers ih =>
        rw [setHeader]
        obtain ⟨old, rest⟩ := List.forall_mem_cons.mp known
        split_ifs
        · exact List.forall_mem_cons.mpr ⟨value, rest⟩
        · exact List.forall_mem_cons.mpr ⟨old, ih rest⟩
    exact ih first fun other member => set other (List.mem_cons_of_mem _ member)

end Cookbook.Grid
