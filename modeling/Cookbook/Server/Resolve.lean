import Cookbook.Library.Buffer
import Cookbook.Server.Machine
import Cookbook.Server.Semver
import Mathlib.Algebra.GroupWithZero.Nat

/-!
# Resolution of versions

The part of a resolve request behind its checks: the published versions of an artifact go through the
filter of the range, one after the other, into a buffer of 8192 bytes. The reply lists all of them
exactly when they fit.
-/
namespace Cookbook.Server

open Library.Text Library.Program

/-! ## The filter -/

/-- What a resolve request asks for. -/
structure ResolveQuery where
  /-- `range` -/
  range : Range
  /-- `include_snapshots` -/
  includeSnapshots : Bool
  /-- `include_yanked` -/
  includeYanked : Bool

/-- The parts of `resolve_filter_ctx` that change. -/
structure ResolveContext where
  /-- `buf`, `len` and `cap` -/
  cursor : Cursor
  /-- `count` -/
  count : Nat

/-- The value of a column, none when it is null or is missing. -/
def column (row : Row) (index : Nat) : Option Bytes := (row[index]?).join

/-- The text of a flag starts with a one. -/
def flagSet (value : Option Bytes) : Bool :=
  match value with
  | some (c :: _) => c == 0x31
  | _ => false

/-- What is printed for a yanked version. -/
def yankedText (reason : Option Bytes) : Bytes :=
  ascii ",\"yanked\":true" ++
    match reason with
    | some (c :: rest) => ascii ",\"yank_reason\":\"" ++ (c :: rest) ++ [quote]
    | _ => []

/-- What is printed for a version. -/
def resolveText (query : ResolveQuery) (row : Row) (version : Bytes) : Bytes :=
  ascii "\x7b\"version\":\"" ++ version ++ ascii "\",\"snapshot\":" ++
    (if flagSet (column row 1) then ascii "true" else ascii "false") ++ ascii ",\"triples\":[\"" ++
    (column row 2).getD (ascii "noarch") ++ ascii "\"]" ++
    (if query.includeYanked && flagSet (column row 3) then yankedText (column row 4) else []) ++
    [closeBrace]

/-- What `resolve_filter_cb` prints for a row, none when it passes it over. -/
def resolveTakes (query : ResolveQuery) (row : Row) : Option Bytes :=
  match column row 0 with
  | none => none
  | some version =>
    if query.includeSnapshots = false ∧ flagSet (column row 1) = true then none
    else
      match semverParse version with
      | none => none
      | some parsed =>
        if rangeSatisfies query.range parsed then some (resolveText query row version) else none

/-- `resolve_filter_cb` -/
def resolveFilter (query : ResolveQuery) (context : ResolveContext) (row : Row) :
    Outcome ResolveContext :=
  match resolveTakes query row with
  | none => .done context
  | some text =>
    (if 0 < context.count then context.cursor.printf [comma] else .done context.cursor).bind
      fun cursor => (cursor.printf text).bind fun cursor => .done ⟨cursor, context.count + 1⟩

/-- The callback on one row after the other. -/
def resolveLoop (query : ResolveQuery) : ResolveContext → List Row → Outcome ResolveContext
  | context, [] => .done context
  | context, row :: rows =>
    (resolveFilter query context row).bind fun context => resolveLoop query context rows

/-- The object with the versions of a text. -/
def versionsObject (versions : Bytes) : Bytes :=
  ascii "\x7b\"versions\":[" ++ versions ++ ascii "]\x7d\n"

/-- The part of `handle_resolve` behind its checks, on the registry's own database. -/
def resolveVersions (groupId artifact : Bytes) (query : ResolveQuery) : Handler (Outcome Bytes) :=
  (Prog.perform (Op.resolve groupId artifact query.includeYanked)).bind fun rows =>
    .done ((resolveLoop query ⟨.empty 8192, 0⟩ rows).bind fun context =>
      .done ((versionsObject context.cursor.text).take 8319))

/-! ## What fits -/

/-- The versions of a listing with the commas between them. -/
def listing (texts : List Bytes) : Bytes := [comma].intercalate texts

/-- The bytes that one entry takes of the buffer, with the comma or the terminator behind it. -/
def entrySize (query : ResolveQuery) (row : Row) : Nat :=
  match resolveTakes query row with
  | none => 0
  | some text => text.length + 1

/-- One more entry of a listing. -/
theorem listing_snoc (texts : List Bytes) (text : Bytes) :
    listing (texts ++ [text]) =
      (if 0 < texts.length then listing texts ++ [comma] else listing texts) ++ text := by
  induction texts with
  | nil => simp [listing]
  | cons first texts ih =>
    cases texts with
    | nil => simp [listing, List.intercalate]
    | cons second texts =>
      have rest : ∀ more : List Bytes, listing (first :: second :: more) =
          first ++ comma :: listing (second :: more) := by
        intro more
        simp [listing, List.intercalate, List.intersperse]
      rw [List.cons_append, List.cons_append, rest, rest, ← List.cons_append, ih]
      simp

/-- A listing and the byte behind it take what the entries take. -/
theorem listing_length (texts : List Bytes) (some : texts ≠ []) :
    (listing texts).length + 1 = (texts.map fun text => text.length + 1).sum := by
  induction texts using List.reverseRecOn with
  | nil => exact absurd rfl some
  | append_singleton texts text ih =>
    rw [listing_snoc, List.map_append, List.sum_append]
    by_cases first : texts = []
    · subst first
      simp [listing]
    · have positive : 0 < texts.length := List.length_pos_of_ne_nil first
      rw [if_pos positive, ← ih first]
      simp only [List.length_append, List.length_singleton, List.map_singleton, List.sum_singleton]
      omega

/-- A listing fits a buffer when its entries do. -/
theorem listing_fits_iff (texts : List Bytes) {cap : Nat} (positive : 0 < cap) :
    (listing texts).length < cap ↔ (texts.map fun text => text.length + 1).sum ≤ cap := by
  by_cases empty : texts = []
  · subst empty
    simpa [listing] using positive
  · have length := listing_length texts empty
    omega

/-- One row adds its text, or the write falls outside the buffer. -/
theorem resolveFilter_spec (query : ResolveQuery) {cap : Nat} (positive : 0 < cap)
    (texts : List Bytes) (row : Row) :
    let after := texts ++ (resolveTakes query row).toList
    let outcome := resolveFilter query ⟨.ofText cap (listing texts), texts.length⟩ row
    (outcome = .done ⟨.ofText cap (listing after), after.length⟩ ∨ outcome = .overrun) ∧
      ((listing after).length < cap → outcome ≠ .overrun) := by
  intro after outcome
  have here : outcome = resolveFilter query ⟨.ofText cap (listing texts), texts.length⟩ row := rfl
  unfold resolveFilter at here
  cases takes : resolveTakes query row with
  | none =>
    rw [takes] at here
    simp only [after, takes, Option.toList_none, List.append_nil, here]
    exact ⟨.inl trivial, fun _ => by simp⟩
  | some text =>
    rw [takes] at here
    have whole : listing after =
        (if 0 < texts.length then listing texts ++ [comma] else listing texts) ++ text := by
      simp only [after, takes, Option.toList_some, listing_snoc]
    have length : after.length = texts.length + 1 := by
      simp [after, takes]
    rw [whole, length]
    by_cases first : 0 < texts.length
    · simp only [if_pos first] at here ⊢
      rw [Cursor.ofText_bind positive] at here
      simp only [Cursor.ofText_bind positive] at here
      rw [here]
      split_ifs with cut late
      · exact ⟨.inr rfl, fun fits => by simp only [List.length_append] at fits; omega⟩
      · exact ⟨.inr rfl, fun fits => by simp only [List.length_append] at fits late; omega⟩
      · exact ⟨.inl rfl, fun _ => by simp⟩
    · simp only [if_neg first, Outcome.bind_done] at here ⊢
      rw [Cursor.ofText_bind positive] at here
      rw [here]
      split_ifs with cut
      · exact ⟨.inr rfl, fun fits => by simp only [List.length_append] at fits; omega⟩
      · exact ⟨.inl rfl, fun _ => by simp⟩

/-- A longer listing is no shorter. -/
theorem listing_grows (texts more : List Bytes) :
    (listing texts).length ≤ (listing (texts ++ more)).length := by
  induction more using List.reverseRecOn with
  | nil => simp
  | append_singleton more text ih =>
    rw [← List.append_assoc, listing_snoc, List.length_append]
    split
    · rw [List.length_append]
      omega
    · omega

/-- The rows of a query leave the listing of those that are taken, or a write falls outside the
buffer. -/
theorem resolveLoop_spec (query : ResolveQuery) {cap : Nat} (positive : 0 < cap) (rows : List Row)
    (texts : List Bytes) :
    let after := texts ++ rows.filterMap (resolveTakes query)
    let outcome := resolveLoop query ⟨.ofText cap (listing texts), texts.length⟩ rows
    (outcome = .done ⟨.ofText cap (listing after), after.length⟩ ∨ outcome = .overrun) ∧
      ((listing after).length < cap → outcome ≠ .overrun) := by
  induction rows generalizing texts with
  | nil =>
    simp only [resolveLoop, List.filterMap_nil, List.append_nil]
    exact ⟨.inl trivial, fun _ => by simp⟩
  | cons row rows ih =>
    intro after outcome
    obtain ⟨step, keeps⟩ := resolveFilter_spec query positive texts row
    have behind : after = texts ++ (resolveTakes query row).toList ++
        rows.filterMap (resolveTakes query) := by
      simp only [after, List.filterMap_cons, List.append_assoc]
      cases resolveTakes query row <;> rfl
    have here : outcome = (resolveFilter query ⟨.ofText cap (listing texts), texts.length⟩ row).bind
        fun context => resolveLoop query context rows := rfl
    rw [behind]
    rcases step with taken | overrun
    · rw [taken, Outcome.bind_done] at here
      rw [here]
      exact ih _
    · rw [overrun, Outcome.bind_overrun] at here
      refine ⟨.inr here, fun fits => absurd overrun (keeps ?_)⟩
      exact Nat.lt_of_le_of_lt (listing_grows _ _) fits

/-- The object with a listing is the reply exactly when its entries fit the buffer. -/
theorem resolveLoop_lists_iff (query : ResolveQuery) (rows : List Row) :
    ((resolveLoop query ⟨.empty 8192, 0⟩ rows).bind fun context =>
        Outcome.done ((versionsObject context.cursor.text).take 8319)) =
      .done (versionsObject (listing (rows.filterMap (resolveTakes query)))) ↔
    (rows.map (entrySize query)).sum ≤ 8192 := by
  have sizes : (rows.map (entrySize query)).sum =
      ((rows.filterMap (resolveTakes query)).map fun text => text.length + 1).sum := by
    induction rows with
    | nil => rfl
    | cons row rows ih =>
      rw [List.map_cons, List.sum_cons, ih, List.filterMap_cons, entrySize]
      cases resolveTakes query row with
      | none => simp
      | some text => simp
  have positive : 0 < 8192 := by decide
  rw [sizes, ← listing_fits_iff _ positive]
  obtain ⟨either, keeps⟩ := resolveLoop_spec query positive rows []
  rw [List.nil_append] at either keeps
  generalize rows.filterMap (resolveTakes query) = texts at either keeps ⊢
  have start : (⟨.empty 8192, 0⟩ : ResolveContext) =
      ⟨.ofText 8192 (listing []), ([] : List Bytes).length⟩ := by
    rw [Cursor.empty_eq_ofText]
    rfl
  have object : ∀ text : Bytes, (versionsObject text).length = text.length + 16 := by
    intro text
    simp only [versionsObject, List.length_append]
    have front : (ascii "\x7b\"versions\":[").length = 13 := by decide
    have back : (ascii "]\x7d\n").length = 3 := by decide
    omega
  rw [start]
  constructor
  · intro lists
    rcases either with done | overrun
    · rw [done, Outcome.bind_done] at lists
      have length := congrArg List.length (Outcome.done.inj lists)
      simp only [List.length_take, object, Cursor.ofText] at length
      omega
    · rw [overrun] at lists
      cases lists
  · intro fits
    rcases either with done | overrun
    · have cut : (versionsObject (listing texts)).length ≤ 8319 := by
        rw [object]
        omega
      rw [done, Outcome.bind_done, Cursor.ofText_text fits, List.take_of_length_le cut]
    · exact absurd overrun (keeps fits)

/-! ## The rows of the query -/

section Rows

variable (db : Database) (groupId artifact : Bytes) (includeYanked : Bool)

/-- The query selects an artifact row. -/
def resolveSelects (row : ArtifactRow) : Bool :=
  row.groupId == groupId && row.artifact == artifact && (includeYanked || row.yanked == 0) &&
    row.status == ascii "published"

/-- The number of index rows of a coordinate. -/
def Database.indexCount (coordId : Bytes) : Nat :=
  db.artifactSemver.countP (·.coordId == coordId)

/-- A row is answered when it is selected and has an index row. -/
theorem mem_resolveRows (row : ArtifactRow) :
    row ∈ db.resolveRows groupId artifact includeYanked ↔
      row ∈ db.artifacts ∧ resolveSelects groupId artifact includeYanked row = true ∧
        0 < db.indexCount row.coordId := by
  unfold Database.resolveRows Database.indexCount resolveSelects
  simp only [List.mem_map, List.mem_mergeSort, List.mem_flatMap, List.mem_filter,
    List.countP_pos_iff]
  constructor
  · rintro ⟨_, ⟨selected, ⟨member, selects⟩, index, found, rfl⟩, rfl⟩
    exact ⟨member, selects, index, found⟩
  · rintro ⟨member, selects, index, found⟩
    exact ⟨(row, index), ⟨row, ⟨member, selects⟩, index, found, rfl⟩, rfl⟩

/-- A sum over the answer takes every selected row once for each of its index rows. -/
theorem resolveRows_sum (size : ArtifactRow → Nat) :
    ((db.resolveRows groupId artifact includeYanked).map size).sum =
      ((db.artifacts.filter (resolveSelects groupId artifact includeYanked)).map fun row =>
        db.indexCount row.coordId * size row).sum := by
  have joined : ∀ rows : List ArtifactRow,
      (((rows.flatMap fun row =>
        (db.artifactSemver.filter (·.coordId == row.coordId)).map fun index => (row, index)).map
          Prod.fst).map size).sum =
      (rows.map fun row => db.indexCount row.coordId * size row).sum := by
    intro rows
    induction rows with
    | nil => rfl
    | cons row rows ih =>
      rw [List.flatMap_cons, List.map_append, List.map_append, List.sum_append, ih, List.map_cons,
        List.sum_cons]
      congr 1
      simp [Database.indexCount, List.countP_eq_length_filter, Function.comp_def]
  unfold Database.resolveRows
  rw [← joined]
  apply List.Perm.sum_nat
  apply List.Perm.map
  apply List.Perm.map
  exact List.mergeSort_perm _ _

end Rows

end Cookbook.Server
