import Cookbook.Grid.GrantHeaders
import Cookbook.Library.Filling
import Mathlib.Algebra.GroupWithZero.Nat

/-!
# The room of the forwarded headers

The builder of the headers counts its position without looking at the end of its 2048 bytes. Here it
writes into the buffer piece by piece; the text it leaves is the one of `buildGridGrantHeaders`, and
the position stays inside exactly as long as the entries of the two maps fit together.
-/
namespace Cookbook.Grid

open Library.Text Policy

/-! ## One entry after the other -/

/-- The next member of a grants map as it is printed, and what is left behind it. -/
def nextGrant (p : Bytes) : Option (Bytes × Bytes) :=
  if p.head? = some closeBrace then none
  else
    match p.dropWhile isGap with
    | [] => none
    | c :: afterOpen =>
      if c = quote then
        match strchr quote afterOpen with
        | none => none
        | some kend =>
          match (kend.drop 1).dropWhile (fun c => c == space || c == colon) with
          | [] => none
          | c :: afterVal =>
            if c = quote then
              match strchr quote afterVal with
              | none => none
              | some vend =>
                some (afterOpen.takeWhile (· != quote) ++ colon :: afterVal.takeWhile (· != quote),
                  vend.drop 1)
            else none
      else none

/-- The next key of an exclude map, and what is left behind its value. -/
def nextExclude (p : Bytes) : Option (Bytes × Bytes) :=
  if p.head? = some closeBrace then none
  else
    match p.dropWhile isGap with
    | [] => none
    | c :: afterOpen =>
      if c = quote then
        match strchr quote afterOpen with
        | none => none
        | some kend =>
          some (afterOpen.takeWhile (· != quote), (kend.drop 1).dropWhile isBareValue)
      else none

/-- The loop over the members of a map: a comma where there is room, then the member. -/
def fillEntries (next : Bytes → Option (Bytes × Bytes)) :
    Nat → Bytes → Bool → Cursor → Outcome Cursor
  | 0, _, _, hdrs => .done hdrs
  | fuel + 1, p, first, hdrs =>
    match next p with
    | none => .done hdrs
    | some (text, rest) =>
      ((if first then hdrs else hdrs.push comma).printf text).bind
        (fillEntries next fuel rest false)

/-- The loop behind the first opening brace of a map. -/
def fillMap (next : Bytes → Option (Bytes × Bytes)) (json : Bytes) (hdrs : Cursor) :
    Outcome Cursor :=
  match strchr openBrace json with
  | none => .done hdrs
  | some p => fillEntries next json.length (p.drop 1) true hdrs

/-- `build_grid_grant_headers` for claims with grants, before the last terminator. -/
def fillHeaders (grants : Bytes) (exclude : Option Bytes) : Outcome Cursor :=
  ((((Cursor.empty headerCap).printf (grantsHeaderName ++ ascii ": ")).bind
    (fillMap nextGrant grants)).bind (·.printf crlf)).bind fun hdrs =>
      match exclude with
      | none => .done hdrs
      | some exclude =>
        ((hdrs.printf (excludeHeaderName ++ ascii ": ")).bind (fillMap nextExclude exclude)).bind
          (·.printf crlf)

/-! ## The text behind it -/

/-- The members a loop prints. -/
def entryTexts (next : Bytes → Option (Bytes × Bytes)) : Nat → Bytes → List Bytes
  | 0, _ => []
  | fuel + 1, p =>
    match next p with
    | none => []
    | some (text, rest) => text :: entryTexts next fuel rest

/-- The members of a map that are printed. -/
def mapTexts (next : Bytes → Option (Bytes × Bytes)) (json : Bytes) : List Bytes :=
  match strchr openBrace json with
  | none => []
  | some p => entryTexts next json.length (p.drop 1)

/-- Members behind others, each behind a comma. -/
def joined (first : Bool) : List Bytes → Bytes
  | [] => []
  | text :: texts => separate [] first ++ text ++ joined false texts

/-- One round of the grants loop. -/
theorem writeGrants_round (fuel : Nat) (p hdrs : Bytes) (first : Bool) :
    writeGrants (fuel + 1) p hdrs first =
      match nextGrant p with
      | none => hdrs
      | some (text, rest) => writeGrants fuel rest (separate hdrs first ++ text) false := by
  rw [writeGrants, nextGrant]
  by_cases closed : p.head? = some closeBrace
  · rw [if_pos closed, if_pos closed]
  · rw [if_neg closed, if_neg closed]
    cases p.dropWhile isGap with
    | nil => rfl
    | cons c afterOpen =>
      by_cases opened : c = quote
      · simp only [if_pos opened]
        cases strchr quote afterOpen with
        | none => rfl
        | some kend =>
          simp only
          cases (kend.drop 1).dropWhile fun c => c == space || c == colon with
          | nil => rfl
          | cons c afterVal =>
            by_cases valued : c = quote
            · simp only [if_pos valued]
              cases strchr quote afterVal with
              | none => rfl
              | some vend => simp only [List.append_assoc]
            · simp only [if_neg valued]
      · simp only [if_neg opened]

/-- One round of the exclude loop. -/
theorem writeExcludes_round (fuel : Nat) (p hdrs : Bytes) (first : Bool) :
    writeExcludes (fuel + 1) p hdrs first =
      match nextExclude p with
      | none => hdrs
      | some (text, rest) => writeExcludes fuel rest (separate hdrs first ++ text) false := by
  rw [writeExcludes, nextExclude]
  by_cases closed : p.head? = some closeBrace
  · rw [if_pos closed, if_pos closed]
  · rw [if_neg closed, if_neg closed]
    cases p.dropWhile isGap with
    | nil => rfl
    | cons c afterOpen =>
      by_cases opened : c = quote
      · simp only [if_pos opened]
        cases strchr quote afterOpen <;> rfl
      · simp only [if_neg opened]

section Loop

variable (next : Bytes → Option (Bytes × Bytes)) {write : Nat → Bytes → Bytes → Bool → Bytes}

/-- A writer whose rounds are these prints the members it reads. -/
theorem write_eq (zero : ∀ p hdrs first, write 0 p hdrs first = hdrs)
    (step : ∀ fuel p hdrs first, write (fuel + 1) p hdrs first =
      match next p with
      | none => hdrs
      | some (text, rest) => write fuel rest (separate hdrs first ++ text) false)
    (fuel : Nat) (p hdrs : Bytes) (first : Bool) :
    write fuel p hdrs first = hdrs ++ joined first (entryTexts next fuel p) := by
  induction fuel generalizing p hdrs first with
  | zero => rw [zero, entryTexts, joined, List.append_nil]
  | succ fuel ih =>
    rw [step, entryTexts]
    cases next p with
    | none => exact (List.append_nil hdrs).symm
    | some entry =>
      simp only [ih, joined]
      cases first <;> simp [separate]

/-- A writer behind the first opening brace of a map. -/
theorem behindBrace_eq (zero : ∀ p hdrs first, write 0 p hdrs first = hdrs)
    (step : ∀ fuel p hdrs first, write (fuel + 1) p hdrs first =
      match next p with
      | none => hdrs
      | some (text, rest) => write fuel rest (separate hdrs first ++ text) false)
    (json hdrs : Bytes) :
    behindBrace write json hdrs = hdrs ++ joined true (mapTexts next json) := by
  rw [behindBrace, mapTexts]
  cases strchr openBrace json with
  | none => exact (List.append_nil hdrs).symm
  | some p => exact write_eq next zero step _ _ _ _

/-- The loop in the buffer follows the text of its members. -/
theorem fillEntries_tracks {cap : Nat} (fuel : Nat) (p : Bytes) (first : Bool) {text : Bytes}
    {outcome : Outcome Cursor} (tracks : Tracks cap text outcome) :
    Tracks cap (text ++ joined first (entryTexts next fuel p))
      (outcome.bind (fillEntries next fuel p first)) := by
  induction fuel generalizing p first text outcome with
  | zero =>
    have same : outcome.bind (fillEntries next 0 p first) = outcome := by
      cases outcome <;> rfl
    rw [same, entryTexts, joined, List.append_nil]
    exact tracks
  | succ fuel ih =>
    rw [entryTexts]
    cases entry : next p with
    | none =>
      have same : outcome.bind (fillEntries next (fuel + 1) p first) = outcome := by
        cases outcome with
        | overrun => rfl
        | done hdrs => rw [Outcome.bind_done, fillEntries, entry]
      rw [same]
      simp only [joined, List.append_nil]
      exact tracks
    | some member =>
      obtain ⟨more, rest⟩ := member
      have separated : Tracks cap (text ++ separate [] first)
          (outcome.bind fun hdrs => .done (if first then hdrs else hdrs.push comma)) := by
        cases first with
        | true =>
          have same : (outcome.bind fun hdrs => Outcome.done
              (if true then hdrs else hdrs.push comma)) = outcome := by
            cases outcome <;> rfl
          rw [same, separate, if_pos rfl, List.append_nil]
          exact tracks
        | false => exact tracks.push comma
      have step := ih rest false (separated.printf more)
      have same : ((outcome.bind fun hdrs => Outcome.done
            (if first then hdrs else hdrs.push comma)).bind (·.printf more)).bind
              (fillEntries next fuel rest false) =
          outcome.bind (fillEntries next (fuel + 1) p first) := by
        cases outcome with
        | overrun => rfl
        | done hdrs => rw [Outcome.bind_done, Outcome.bind_done, Outcome.bind_done, fillEntries,
            entry]
      rw [same, List.append_assoc, List.append_assoc] at step
      simp only [joined]
      rwa [List.append_assoc]

/-- The loop behind the first opening brace follows the text of the map's members. -/
theorem fillMap_tracks {cap : Nat} (json : Bytes) {text : Bytes} {outcome : Outcome Cursor}
    (tracks : Tracks cap text outcome) :
    Tracks cap (text ++ joined true (mapTexts next json)) (outcome.bind (fillMap next json)) := by
  rw [mapTexts]
  cases brace : strchr openBrace json with
  | none =>
    have same : outcome.bind (fillMap next json) = outcome := by
      cases outcome with
      | overrun => rfl
      | done hdrs => rw [Outcome.bind_done, fillMap, brace]
    rw [same]
    simp only [joined, List.append_nil]
    exact tracks
  | some p =>
    have same : outcome.bind (fillMap next json) =
        outcome.bind (fillEntries next json.length (p.drop 1) true) := by
      cases outcome with
      | overrun => rfl
      | done hdrs => rw [Outcome.bind_done, Outcome.bind_done, fillMap, brace]
    rw [same]
    exact fillEntries_tracks next _ _ _ tracks

end Loop

/-- Both lines. -/
def headerText (grants : Bytes) (exclude : Option Bytes) : Bytes :=
  grantsHeaderName ++ ascii ": " ++ joined true (mapTexts nextGrant grants) ++ crlf ++
    match exclude with
    | none => []
    | some exclude =>
      excludeHeaderName ++ ascii ": " ++ joined true (mapTexts nextExclude exclude) ++ crlf

/-- The builder writes both lines. -/
theorem fillHeaders_tracks (grants : Bytes) (exclude : Option Bytes) :
    Tracks headerCap (headerText grants exclude) (fillHeaders grants exclude) := by
  have first := (fillMap_tracks nextGrant grants
    ((Tracks.start headerCap).printf (grantsHeaderName ++ ascii ": "))).printf crlf
  rw [List.nil_append, Outcome.bind_done] at first
  cases exclude with
  | none =>
    rw [headerText, fillHeaders, List.append_nil]
    cases whole : (((Cursor.empty headerCap).printf (grantsHeaderName ++ ascii ": ")).bind
      (fillMap nextGrant grants)).bind (·.printf crlf) <;> rwa [whole] at first
  | some exclude =>
    have second := (fillMap_tracks nextExclude exclude
      (first.printf (excludeHeaderName ++ ascii ": "))).printf crlf
    rw [headerText, fillHeaders]
    simp only [List.append_assoc] at second ⊢
    cases whole : (((Cursor.empty headerCap).printf (grantsHeaderName ++ ascii ": ")).bind
      (fillMap nextGrant grants)).bind (·.printf crlf) <;> rw [whole] at second <;> exact second

/-- The text in the buffer is the one of `buildGridGrantHeaders`, and the last terminator is what
falls outside when it does not fit. -/
theorem buildGridGrantHeaders_eq (grants : Bytes) (exclude : Option Bytes) :
    buildGridGrantHeaders ⟨2, some grants, exclude⟩ =
      ((fillHeaders grants exclude).bind fun hdrs =>
        if hdrs.pos < hdrs.cap then .done hdrs.text else .overrun).bind fun hdrs =>
          .done (some hdrs) := by
  have grantsText := behindBrace_eq nextGrant (fun _ _ _ => rfl) writeGrants_round
  have excludeText := behindBrace_eq nextExclude (fun _ _ _ => rfl) writeExcludes_round
  rw [(fillHeaders_tracks grants exclude).terminate, buildGridGrantHeaders]
  simp only [ne_eq, not_true_eq_false, ↓reduceIte, grantsText, excludeText]
  cases exclude with
  | none => simp only [headerText, List.append_nil]
  | some exclude => simp only [headerText, List.append_assoc]

/-! ## What fits -/

/-- The room of a map's members with the commas between them. -/
def entriesSize (texts : List Bytes) : Nat := (texts.map fun text => text.length + 1).sum - 1

/-- The room of both lines. -/
def headerSize (grants : Bytes) (exclude : Option Bytes) : Nat :=
  26 + entriesSize (mapTexts nextGrant grants) +
    match exclude with
    | none => 0
    | some exclude => 27 + entriesSize (mapTexts nextExclude exclude)

/-- Members joined by commas take their own room. -/
theorem joined_length (texts : List Bytes) : (joined true texts).length = entriesSize texts := by
  have behind : ∀ texts : List Bytes,
      (joined false texts).length = (texts.map fun text => text.length + 1).sum := by
    intro texts
    induction texts with
    | nil => rfl
    | cons text texts ih =>
      simp only [joined, separate, Bool.false_eq_true, ↓reduceIte, List.length_append, ih,
        List.map_cons, List.sum_cons, List.length_nil, List.length_singleton]
      omega
  cases texts with
  | nil => rfl
  | cons text texts =>
    simp only [joined, separate, ↓reduceIte, List.nil_append, List.length_append, behind,
      entriesSize, List.map_cons, List.sum_cons]
    omega

/-- The position stays inside the buffer exactly when both lines leave room for the terminator. -/
theorem fillHeaders_below_iff (grants : Bytes) (exclude : Option Bytes) :
    Below (fillHeaders grants exclude) ↔ headerSize grants exclude < 2048 := by
  have grantsName : (grantsHeaderName ++ ascii ": ").length = 24 := by decide
  have excludeName : (excludeHeaderName ++ ascii ": ").length = 25 := by decide
  have lineEnd : crlf.length = 2 := rfl
  have size : (headerText grants exclude).length = headerSize grants exclude := by
    cases exclude with
    | none =>
      rw [headerText, headerSize]
      simp only [List.length_append, List.length_nil, joined_length] at grantsName ⊢
      omega
    | some exclude =>
      rw [headerText, headerSize]
      simp only [List.length_append, joined_length] at grantsName excludeName ⊢
      omega
  rw [(fillHeaders_tracks grants exclude).below_iff, size]
  rfl

end Cookbook.Grid
