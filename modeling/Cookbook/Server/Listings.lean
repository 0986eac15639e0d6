import Cookbook.Grid.HeaderRoom
import Cookbook.Server.Resolve

/-!
# Listings in fixed buffers

The callbacks that list the rows of a query and the builder of the forwarded grants all write piece
by piece and add up the untruncated lengths. Each of them keeps its position inside the buffer
exactly as long as the texts of its rows or entries fit together; nothing else holds the position
back.
-/
namespace Cookbook.Server

open Library.Text Policy Grid

/-! ## The callbacks -/

/-- The parts of a callback's context that change. -/
abbrev ListContext := ResolveContext

/-- A callback that separates its entries by a comma. A guarded comma is put only where there is
room, the others are printed. -/
def listRow (guarded : Bool) (takes : Row → Option Bytes) (context : ListContext) (row : Row) :
    Outcome ListContext :=
  match takes row with
  | none => .done context
  | some text =>
    (if 0 < context.count then
        if guarded then .done (context.cursor.push comma) else context.cursor.printf [comma]
      else .done context.cursor).bind
      fun cursor => (cursor.printf text).bind fun cursor => .done ⟨cursor, context.count + 1⟩

/-- A member of a JSON object with a text, behind the opening brace or a comma. -/
def textMember (name value : Bytes) : Bytes :=
  quote :: (name ++ ascii "\":\"" ++ value ++ [quote])

/-- What `mirror_collect_cb` prints for a row the caller may read. -/
def mirrorTakes (registryId : Bytes) (grantsJson excludeJson : Option Bytes) (row : Row) :
    Option Bytes :=
  match column row 0, column row 1, column row 2 with
  | some grp, some art, some ver =>
    if grantsJson.isSome && !authCheck grantsJson excludeJson (some grp) (0x72) then none
    else
      let grpPath := (snprintf 256 grp).map fun c => if c == dot then slash else c
      some (openBrace :: (textMember (ascii "group") grp ++ comma ::
        (textMember (ascii "artifact") art ++ comma :: (textMember (ascii "version") ver ++ comma ::
          (textMember (ascii "base_path")
            (registryId ++ slash :: (grpPath ++ slash :: (art ++ slash :: ver))) ++
              [closeBrace])))))
  | _, _, _ => none

/-- `mirror_collect_cb` -/
def mirrorCollect (registryId : Bytes) (grantsJson excludeJson : Option Bytes) :
    ListContext → Row → Outcome ListContext :=
  listRow false (mirrorTakes registryId grantsJson excludeJson)

/-- What `group_list_cb` prints for a row. -/
def groupTakes (row : Row) : Option Bytes :=
  match column row 0 with
  | none => none
  | some gid =>
    if row.length < 4 then none
    else
      some (openBrace :: (textMember (ascii "group_id") gid ++ comma ::
        (textMember (ascii "owner") ((column row 1).getD []) ++ comma ::
          (textMember (ascii "created_at") ((column row 2).getD []) ++
            match column row 3 with
            | some desc => comma :: (textMember (ascii "description") desc ++ [closeBrace])
            | none => [closeBrace]))))

/-- `group_list_cb` -/
def groupList : ListContext → Row → Outcome ListContext := listRow true groupTakes

/-- What `cred_list_cb` prints for a row. -/
def credTakes (row : Row) : Option Bytes :=
  match column row 0 with
  | none => none
  | some subject =>
    if row.length < 4 then none
    else
      some (openBrace :: (textMember (ascii "subject") subject ++ comma ::
        (textMember (ascii "groups") ((column row 1).getD []) ++ comma ::
          (textMember (ascii "created_at") ((column row 2).getD []) ++
            (if (column row 3).isSome then ascii ",\"revoked\":true" else []) ++ [closeBrace]))))

/-- `cred_list_cb` -/
def credList : ListContext → Row → Outcome ListContext := listRow true credTakes

/-- What `policy_list_cb` prints for a row. -/
def policyTakes (row : Row) : Option Bytes :=
  match column row 0 with
  | none => none
  | some sub =>
    if row.length < 3 then none
    else
      some (openBrace :: (textMember (ascii "subject") sub ++ comma ::
        (textMember (ascii "kind") ((column row 1).getD (ascii "user")) ++ comma ::
          (textMember (ascii "updated_at") ((column row 2).getD []) ++ [closeBrace]))))

/-- `policy_list_cb` -/
def policyList : ListContext → Row → Outcome ListContext := listRow false policyTakes

/-- A resolve is one of these listings. -/
theorem resolveFilter_eq (query : ResolveQuery) :
    resolveFilter query = listRow false (resolveTakes query) := rfl

/-! ## The loops -/

/-- The places where a query runs a callback on a new buffer. -/
inductive ListLoop
  /-- `GET /resolve/` and `GET /grid/resolve/` -/
  | resolve (query : ResolveQuery)
  /-- `GET /mirror/manifest` and `GET /grid/manifest` -/
  | mirror (registryId : Bytes) (grantsJson excludeJson : Option Bytes)
  /-- `GET /admin/groups/{group_id}` -/
  | group
  /-- `GET /admin/groups` -/
  | groups
  /-- `GET /admin/credentials` -/
  | credentials
  /-- `GET /admin/policies` -/
  | policies

namespace ListLoop

/-- The size of the buffer. -/
def cap : ListLoop → Nat
  | resolve _ => 8192
  | mirror _ _ _ => 65536
  | group => 2048
  | groups => 16384
  | credentials => 8192
  | policies => 8192

/-- What is printed in front of the rows. -/
def start : ListLoop → Bytes
  | groups => ascii "\x7b\"groups\":["
  | credentials => ascii "\x7b\"credentials\":["
  | resolve _ | mirror _ _ _ | group | policies => []

/-- The text printed for a row, none when the row is passed over. -/
def takes : ListLoop → Row → Option Bytes
  | resolve query => resolveTakes query
  | mirror registryId grantsJson excludeJson => mirrorTakes registryId grantsJson excludeJson
  | group | groups => groupTakes
  | credentials => credTakes
  | policies => policyTakes

/-- The callback. -/
def callback : ListLoop → ListContext → Row → Outcome ListContext
  | resolve query => resolveFilter query
  | mirror registryId grantsJson excludeJson => mirrorCollect registryId grantsJson excludeJson
  | group | groups => groupList
  | credentials => credList
  | policies => policyList

/-- The callback on one row after the other. -/
def rest (loop : ListLoop) : ListContext → List Row → Outcome ListContext
  | context, [] => .done context
  | context, row :: rows => (loop.callback context row).bind fun context => loop.rest context rows

/-- A query with these rows, on a new buffer. -/
def run (loop : ListLoop) (rows : List Row) : Outcome ListContext :=
  ((Cursor.empty loop.cap).printf loop.start).bind fun cursor => loop.rest ⟨cursor, 0⟩ rows

/-- The room a row takes, with the comma or the terminator behind it. -/
def rowSize (loop : ListLoop) (row : Row) : Nat :=
  match loop.takes row with
  | none => 0
  | some text => text.length + 1

/-- Every loop separates its entries in one of two ways. -/
theorem callback_eq (loop : ListLoop) :
    ∃ guarded, loop.callback = listRow guarded loop.takes := by
  cases loop with
  | resolve query => exact ⟨false, rfl⟩
  | mirror registryId grantsJson excludeJson => exact ⟨false, rfl⟩
  | group => exact ⟨true, rfl⟩
  | groups => exact ⟨true, rfl⟩
  | credentials => exact ⟨true, rfl⟩
  | policies => exact ⟨false, rfl⟩

/-- What is printed in front always fits. -/
theorem start_fits (loop : ListLoop) : loop.start.length < loop.cap := by
  cases loop with
  | groups | credentials => decide
  | resolve query => exact Nat.succ_pos 8191
  | mirror registryId grantsJson excludeJson => exact Nat.succ_pos 65535
  | group => exact Nat.succ_pos 2047
  | policies => exact Nat.succ_pos 8191

end ListLoop

/-- The cursor of a context. -/
def cursorOf (outcome : Outcome ListContext) : Outcome Cursor :=
  outcome.bind fun context => .done context.cursor

/-- A loop that has printed these texts behind its start. -/
structure Lists (cap : Nat) (start : Bytes) (texts : List Bytes) (outcome : Outcome ListContext) :
    Prop where
  /-- The buffer has been given the start and the listing. -/
  tracks : Tracks cap (start ++ listing texts) (cursorOf outcome)
  /-- The entries are counted. -/
  counted : ∀ context, outcome = .done context → context.count = texts.length

namespace Lists

variable {cap : Nat} {start : Bytes} {texts : List Bytes} {outcome : Outcome ListContext}

/-- A row that is taken adds its text behind a comma, any other row adds nothing. -/
theorem row (lists : Lists cap start texts outcome) (guarded : Bool) (takes : Row → Option Bytes)
    (row : Row) :
    Lists cap start (texts ++ (takes row).toList)
      (outcome.bind fun context => listRow guarded takes context row) := by
  have tracks := lists.tracks
  cases taken : takes row with
  | none =>
    have same : (outcome.bind fun context => listRow guarded takes context row) = outcome := by
      cases outcome with
      | done context => simp only [Outcome.bind_done, listRow, taken]
      | overrun => rfl
    rw [same, Option.toList_none, List.append_nil]
    exact lists
  | some text =>
    rw [Option.toList_some]
    have comma_tracks : Tracks cap
        (start ++ if 0 < texts.length then listing texts ++ [comma] else listing texts)
        (outcome.bind fun context =>
          if 0 < context.count then
            if guarded then .done (context.cursor.push comma) else context.cursor.printf [comma]
          else .done context.cursor) := by
      by_cases first : 0 < texts.length
      · have more : ∀ context, outcome = .done context → 0 < context.count := by
          intro context done
          rw [lists.counted context done]
          exact first
        rw [if_pos first, ← List.append_assoc]
        cases guarded with
        | true =>
          have next := tracks.push comma
          cases outcome with
          | overrun => exact next
          | done context =>
            rw [Outcome.bind_done, if_pos (more context rfl), if_pos rfl]
            exact next
        | false =>
          have next := tracks.printf [comma]
          cases outcome with
          | overrun => exact next
          | done context =>
            rw [Outcome.bind_done, if_pos (more context rfl), if_neg Bool.false_ne_true]
            exact next
      · rw [if_neg first]
        cases outcome with
        | overrun => exact tracks
        | done context =>
          have none : ¬ 0 < context.count := by
            rw [lists.counted context rfl]
            exact first
          rw [Outcome.bind_done, if_neg none]
          exact tracks
    have text_tracks := comma_tracks.printf text
    rw [List.append_assoc, ← listing_snoc] at text_tracks
    cases outcome with
    | overrun => exact ⟨text_tracks, fun _ done => by cases done⟩
    | done context =>
      rw [Outcome.bind_done] at text_tracks ⊢
      simp only [listRow, taken]
      generalize (if 0 < context.count then
        if guarded then Outcome.done (context.cursor.push comma) else context.cursor.printf [comma]
        else .done context.cursor) = separated at text_tracks ⊢
      cases separated with
      | overrun => exact ⟨text_tracks, fun _ done => by cases done⟩
      | done cursor =>
        rw [Outcome.bind_done] at text_tracks ⊢
        cases printed : cursor.printf text with
        | overrun =>
          rw [printed] at text_tracks
          exact ⟨text_tracks, fun _ done => by cases done⟩
        | done cursor =>
          rw [printed] at text_tracks
          refine ⟨text_tracks, fun after done => ?_⟩
          cases done
          rw [List.length_append, List.length_singleton, lists.counted context rfl]

/-- The rows of a query, one after the other. -/
theorem rows (loop : ListLoop) (lists : Lists cap start texts outcome) (rows : List Row) :
    Lists cap start (texts ++ rows.filterMap loop.takes)
      (outcome.bind fun context => loop.rest context rows) := by
  obtain ⟨guarded, callback⟩ := loop.callback_eq
  induction rows generalizing texts outcome with
  | nil =>
    have same : (outcome.bind fun context => loop.rest context []) = outcome := by
      cases outcome <;> rfl
    rw [same, List.filterMap_nil, List.append_nil]
    exact lists
  | cons row rows ih =>
    have next := ih (lists.row guarded loop.takes row)
    have apart : (outcome.bind fun context => loop.rest context (row :: rows)) =
        (outcome.bind fun context => listRow guarded loop.takes context row).bind
          fun context => loop.rest context rows := by
      cases outcome with
      | overrun => rfl
      | done context =>
        rw [Outcome.bind_done, Outcome.bind_done, ListLoop.rest, callback]
    have texts_apart : texts ++ (row :: rows).filterMap loop.takes =
        texts ++ (loop.takes row).toList ++ rows.filterMap loop.takes := by
      rw [List.filterMap_cons, List.append_assoc]
      cases loop.takes row <;> rfl
    rw [apart, texts_apart]
    exact next

end Lists

/-- A query leaves the position inside the buffer exactly when its rows fit behind the start. -/
theorem ListLoop.below_iff (loop : ListLoop) (rows : List Row) :
    Below (cursorOf (loop.run rows)) ↔
      (rows.map loop.rowSize).sum ≤ loop.cap - loop.start.length := by
  have begun : Lists loop.cap loop.start []
      (((Cursor.empty loop.cap).printf loop.start).bind fun cursor => .done ⟨cursor, 0⟩) := by
    have written := (Tracks.start loop.cap).printf loop.start
    rw [List.nil_append, Outcome.bind_done] at written
    cases printed : (Cursor.empty loop.cap).printf loop.start with
    | overrun =>
      rw [printed] at written
      refine ⟨?_, fun _ done => by cases done⟩
      rw [listing, List.intercalate_nil, List.append_nil]
      exact written
    | done cursor =>
      rw [printed] at written
      refine ⟨?_, fun _ done => by cases done; rfl⟩
      rw [listing, List.intercalate_nil, List.append_nil]
      exact written
  have whole := begun.rows loop rows
  have same : ((((Cursor.empty loop.cap).printf loop.start).bind
      fun cursor => Outcome.done (⟨cursor, 0⟩ : ListContext)).bind
        fun context => loop.rest context rows) = loop.run rows := by
    unfold ListLoop.run
    cases (Cursor.empty loop.cap).printf loop.start <;> rfl
  rw [same, List.nil_append] at whole
  have sizes : (rows.map loop.rowSize).sum =
      ((rows.filterMap loop.takes).map fun text => text.length + 1).sum := by
    clear whole same
    induction rows with
    | nil => rfl
    | cons row rows ih =>
      rw [List.map_cons, List.sum_cons, ih, List.filterMap_cons, ListLoop.rowSize]
      cases loop.takes row with
      | none => exact Nat.zero_add _
      | some text => rw [List.map_cons, List.sum_cons]
  have fits := loop.start_fits
  have room : 0 < loop.cap - loop.start.length := by omega
  rw [whole.tracks.below_iff, sizes, ← listing_fits_iff _ room, List.length_append]
  omega

/-- The position stays inside the buffer in every listing exactly when the rows fit behind its start,
and in the forwarded headers exactly when both lines fit. -/
theorem positions_below_iff (loop : ListLoop) (rows : List Row) (grants : Bytes)
    (exclude : Option Bytes) :
    (Below (cursorOf (loop.run rows)) ↔
      (rows.map loop.rowSize).sum ≤ loop.cap - loop.start.length) ∧
    (Below (fillHeaders grants exclude) ↔ headerSize grants exclude < 2048) :=
  ⟨loop.below_iff rows, fillHeaders_below_iff grants exclude⟩

/-- The row of a user's policy. -/
def userPolicy (subject : Bytes) : Row :=
  [some subject, some (ascii "user"), some (ascii "2026-04-01T12:00:00")]

/-- A hundred users with policies. -/
def hundredPolicies : List Row :=
  (List.range 100).map fun n => userPolicy (ascii "release-engineer-" ++ [0x30 + UInt8.ofNat (n / 10),
    0x30 + UInt8.ofNat (n % 10)])

/-- With a hundred policies the position is behind the end of the buffer, with a grant of two
thousand letters the position of the headers is. -/
theorem positions_leave :
    ¬ Below (cursorOf (ListLoop.policies.run hundredPolicies)) ∧
      ¬ Below (fillHeaders
        (ascii "\x7b\"" ++ List.replicate 2100 0x61 ++ ascii "\":\"r\"\x7d") none) := by
  rw [ListLoop.below_iff, fillHeaders_below_iff]
  decide +kernel

end Cookbook.Server
