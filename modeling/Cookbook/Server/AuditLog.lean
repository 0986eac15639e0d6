import Cookbook.Pasta.Records
import Cookbook.Server.Requests

/-!
# The audit log

`audit_log` prints one line for an event and appends it to the file and to the write-ahead log of its
category. Of the texts from outside only the target has its quotes replaced; nothing takes line ends
out, and the line is handed on in the length that it would have without its buffer.
-/
namespace Cookbook.Server

open Library.Text Library.Calendar Pasta

/-! ## The function -/

/-- The events that the handlers log. -/
def auditEvents : List Bytes :=
  [ascii "auth", ascii "publish", ascii "yank", ascii "resolve", ascii "objects", ascii "access",
    ascii "admin"]

/-- The results that they log. -/
def auditResults : List Bytes :=
  [ascii "ok", ascii "jwt-invalid", ascii "rate-limited", ascii "denied", ascii "duplicate",
    ascii "validation-failed", ascii "bad-credentials", ascii "oidc-failed", ascii "ldap-ok",
    ascii "ldap-fallback-ok", ascii "ldap+local-failed", ascii "local+ldap-failed", ascii "stored",
    ascii "graph-stored", ascii "group-created", ascii "group-updated", ascii "group-deleted"]

/-- The arguments of `audit_log`. -/
structure AuditEvent where
  event : Bytes
  subject : Option Bytes
  target : Option Bytes
  result : Option Bytes

/-- The three logs. -/
inductive AuditCategory
  | auth
  | admin
  | access
  deriving DecidableEq

/-- The category of an event. -/
def auditCategory (event : Bytes) : AuditCategory :=
  if event = ascii "auth" then .auth else if event = ascii "admin" then .admin else .access

/-- The files and the write-ahead logs that are open. -/
structure AuditLogs where
  files : AuditCategory → Option Bytes
  wals : AuditCategory → Option (List Bytes)

/-- A text at the end of the logs of a category. -/
def AuditLogs.append (logs : AuditLogs) (category : AuditCategory) (line : Bytes) : AuditLogs where
  files other := if other = category then (logs.files other).map (· ++ line) else logs.files other
  wals other := if other = category then (logs.wals other).map (· ++ [line]) else logs.wals other

/-- `safe_target` -/
def safeTarget (target : Bytes) : Bytes :=
  (target.take 511).map fun c => if c = quote then 0x27 else c

namespace AuditEvent

/-- The subject that is logged. -/
def subjectText (event : AuditEvent) : Bytes := event.subject.getD (ascii "anonymous")

/-- The result that is logged. -/
def resultText (event : AuditEvent) : Bytes := event.result.getD (ascii "ok")

/-- What the format prints. -/
def text (event : AuditEvent) (ts : Bytes) : Bytes :=
  let front := openBrace :: ascii " timestamp: \"" ++ ts ++ ascii "\", event: \"" ++ event.event ++
    ascii "\", subject: \"" ++ event.subjectText
  let back := ascii "\", result: \"" ++ event.resultText ++ ascii "\" " ++ [closeBrace, newline]
  if event.target.getD [] = [] then front ++ back
  else front ++ ascii "\", target: \"" ++ safeTarget (event.target.getD []) ++ back

end AuditEvent

/-- The bytes that are appended: as many as the text has, from an array of 1024. -/
def auditLine (ts : Bytes) (event : AuditEvent) : Outcome Bytes :=
  let text := event.text ts
  if text.length < 1024 then .done text
  else if text.length = 1024 then .done (text.take 1023 ++ [0])
  else .overrun

/-- `audit_log` -/
def auditLog (logs : AuditLogs) (ts : Bytes) (event : AuditEvent) : Outcome AuditLogs :=
  let category := auditCategory event.event
  if logs.files category = none ∧ logs.wals category = none then .done logs
  else (auditLine ts event).bind fun line => .done (logs.append category line)

/-! ## Entries -/

/-- The target that an entry has: with its quotes replaced, and none for an empty one. -/
def AuditEvent.loggedTarget (event : AuditEvent) : Option Bytes :=
  if event.target.getD [] = [] then none
  else some ((event.target.getD []).map fun c => if c = quote then 0x27 else c)

/-- One line is appended, and it is read as a map with what was logged. -/
def Recorded (ts : Bytes) (event : AuditEvent) : Prop :=
  ∃ body : Bytes, newline ∉ body ∧
    (∀ logs : AuditLogs, auditLog logs ts event =
      .done (logs.append (auditCategory event.event) (body ++ [newline]))) ∧
    ∃ entries, parse (body ++ [newline]) = .ok (.map entries) ∧
      Entries.get entries (ascii "event") = some (.string event.event) ∧
      Entries.get entries (ascii "subject") = some (.string event.subjectText) ∧
      Entries.get entries (ascii "target") = event.loggedTarget.map .string ∧
      Entries.get entries (ascii "result") = some (.string event.resultText)

/-- No quote and no line end in the subject, no line end in the target, and neither the target nor the
line is cut. -/
structure CleanEvent (ts : Bytes) (event : AuditEvent) : Prop where
  subject : IsPlain event.subjectText
  target : ∀ target ∈ event.target, newline ∉ target ∧ target.length ≤ 511
  size : (event.text ts).length < 1024

/-- The fields of a line. -/
def AuditEvent.fields (event : AuditEvent) (ts : Bytes) : List (Bytes × Bytes) :=
  [(ascii "timestamp", ts), (ascii "event", event.event), (ascii "subject", event.subjectText)] ++
    (if event.target.getD [] = [] then []
      else [(ascii "target", safeTarget (event.target.getD []))]) ++
    [(ascii "result", event.resultText)]

/-- The line is a record of its fields. -/
theorem AuditEvent.text_eq (event : AuditEvent) (ts : Bytes) :
    event.text ts = recordLine (event.fields ts) := by
  have stamp : ascii " timestamp: \"" = space :: (ascii "timestamp" ++ [colon, space, quote]) := by
    decide
  have name : ascii "\", event: \"" =
      quote :: comma :: space :: (ascii "event" ++ [colon, space, quote]) := by decide
  have who : ascii "\", subject: \"" =
      quote :: comma :: space :: (ascii "subject" ++ [colon, space, quote]) := by decide
  have what : ascii "\", target: \"" =
      quote :: comma :: space :: (ascii "target" ++ [colon, space, quote]) := by decide
  have outcome : ascii "\", result: \"" =
      quote :: comma :: space :: (ascii "result" ++ [colon, space, quote]) := by decide
  have ends : ascii "\" " = [quote, space] := by decide
  unfold AuditEvent.text AuditEvent.fields
  rw [stamp, name, who, what, outcome, ends]
  split <;> simp [recordLine, recordField, List.intercalate_cons_cons]

/-- Each field of a line has a word for a key. -/
theorem AuditEvent.fields_words (event : AuditEvent) (ts : Bytes) :
    ∀ field ∈ event.fields ts, IsWord field.1 := by
  have words : ∀ key ∈ [ascii "timestamp", ascii "event", ascii "subject", ascii "target",
      ascii "result"], IsWord key := by decide +kernel
  intro field member
  apply words
  unfold AuditEvent.fields at member
  split at member <;> simp at member <;> rcases member with rfl | rfl | rfl | rfl | rfl <;> simp

/-- What a line of plain texts says. -/
theorem AuditEvent.entries_get (event : AuditEvent) (ts : Bytes) :
    Entries.get (recordEntries (event.fields ts)) (ascii "event") = some (.string event.event) ∧
    Entries.get (recordEntries (event.fields ts)) (ascii "subject") =
      some (.string event.subjectText) ∧
    Entries.get (recordEntries (event.fields ts)) (ascii "target") =
      (if event.target.getD [] = [] then none
        else some (.string (safeTarget (event.target.getD [])))) ∧
    Entries.get (recordEntries (event.fields ts)) (ascii "result") =
      some (.string event.resultText) := by
  unfold AuditEvent.fields
  split <;> refine ⟨?_, ?_, ?_, ?_⟩ <;> rfl

/-! ## Clean events -/

/-- The texts that the server itself puts into an entry are plain. -/
structure OwnTexts (ts : Bytes) (event : AuditEvent) : Prop where
  stamp : IsPlain ts
  name : IsPlain event.event
  result : IsPlain event.resultText

theorem safeTarget_quote (target : Bytes) : quote ∉ safeTarget target := by
  intro member
  obtain ⟨c, -, same⟩ := List.mem_map.mp member
  split at same
  · cases same
  · next other => exact other same

theorem safeTarget_plain {target : Bytes} (free : newline ∉ target) :
    IsPlain (safeTarget target) := by
  constructor
  · exact safeTarget_quote target
  · intro member
    obtain ⟨c, inside, same⟩ := List.mem_map.mp member
    split at same
    · cases same
    · exact free (same ▸ List.mem_of_mem_take inside)

/-- A line with plain fields is a map of them. -/
theorem AuditEvent.parse_text {event : AuditEvent} {ts : Bytes} (own : OwnTexts ts event)
    (subject : IsPlain event.subjectText) (target : IsPlain (safeTarget (event.target.getD []))) :
    (∀ field ∈ event.fields ts, IsWord field.1 ∧ IsPlain field.2) ∧
      parse (event.text ts) = .ok (.map (recordEntries (event.fields ts))) := by
  have valid : ∀ field ∈ event.fields ts, IsWord field.1 ∧ IsPlain field.2 := by
    intro field member
    refine ⟨event.fields_words ts field member, ?_⟩
    unfold AuditEvent.fields at member
    simp only [List.mem_append, List.mem_cons, List.not_mem_nil, or_false] at member
    rcases member with ((rfl | rfl | rfl) | member) | rfl
    · exact own.stamp
    · exact own.name
    · exact subject
    · split at member
      · cases member
      · rw [List.mem_singleton.mp member]
        exact target
    · exact own.result
  refine ⟨valid, ?_⟩
  rw [event.text_eq]
  exact parse_recordLine (by simp [AuditEvent.fields]) valid

/-- A target that is not cut is logged with its quotes replaced. -/
theorem AuditEvent.loggedTarget_eq {event : AuditEvent}
    (whole : ∀ target ∈ event.target, target.length ≤ 511) :
    (if event.target.getD [] = [] then none
      else some (Value.string (safeTarget (event.target.getD [])))) =
        event.loggedTarget.map .string := by
  have all : (event.target.getD []).take 511 = event.target.getD [] := by
    cases target : event.target with
    | none => rfl
    | some text => exact List.take_of_length_le (whole text target)
  unfold AuditEvent.loggedTarget safeTarget
  rw [all]
  split <;> rfl

/-- Logs that are closed stay as they are. -/
theorem AuditLogs.append_closed {logs : AuditLogs} {category : AuditCategory} (line : Bytes)
    (file : logs.files category = none) (wal : logs.wals category = none) :
    logs.append category line = logs := by
  unfold AuditLogs.append
  congr 1
  · funext other
    split
    · next same => rw [same, file]; rfl
    · rfl
  · funext other
    split
    · next same => rw [same, wal]; rfl
    · rfl

/-- A clean event is recorded. -/
theorem recorded_of_clean {ts : Bytes} {event : AuditEvent} (own : OwnTexts ts event)
    (clean : CleanEvent ts event) : Recorded ts event := by
  have free : newline ∉ event.target.getD [] := by
    cases target : event.target with
    | none => exact List.not_mem_nil
    | some text => exact (clean.target text target).1
  obtain ⟨valid, parsed⟩ := event.parse_text own clean.subject (safeTarget_plain free)
  obtain ⟨body, ends, lines⟩ := recordLine_lines (event.fields ts)
  rw [← event.text_eq] at ends
  refine ⟨body, ?_, fun logs => ?_, recordEntries (event.fields ts), ends ▸ parsed, ?_⟩
  · rw [lines]
    rintro ⟨field, member, inside | inside⟩
    · exact absurd ((valid field member).1.2 newline inside) (by decide)
    · exact (valid field member).2.2 inside
  · have written : auditLine ts event = .done (body ++ [newline]) := by
      rw [auditLine, if_pos clean.size, ends]
    simp only [auditLog, written]
    split
    · next closed => rw [logs.append_closed _ closed.1 closed.2]
    · rfl
  · obtain ⟨name, who, what, outcome⟩ := event.entries_get ts
    exact ⟨name, who, what.trans (event.loggedTarget_eq fun target member =>
      (clean.target target member).2), outcome⟩

/-! ## Recorded events -/

/-- Two quotes are no three. -/
theorem no_triple {text : Bytes} (few : text.count quote ≤ 2) :
    ¬ [quote, quote, quote] <:+: text := by
  intro occurs
  have three := occurs.sublist.count_le quote
  rw [show [quote, quote, quote].count quote = 3 from rfl] at three
  omega

/-- A piece of a line that holds one plain text has two quotes. -/
theorem piece_count {data : Bytes} (free : quote ∉ data) {front back : Bytes}
    (before : front.count quote = 1) (behind : back.count quote = 1) :
    ¬ [quote, quote, quote] <:+: front ++ data ++ back := by
  apply no_triple
  rw [List.count_append, List.count_append, before, behind, List.count_eq_zero.mpr free]

/-- The subject of an entry that is read back has no quote. -/
theorem subject_free {ts : Bytes} {event : AuditEvent} {entries : Entries}
    (own : OwnTexts ts event) (parsed : parse (event.text ts) = .ok (.map entries))
    (found : Entries.get entries (ascii "subject") = some (.string event.subjectText)) :
    quote ∉ event.subjectText := by
  intro held
  obtain ⟨⟨key, value⟩, search, same⟩ := Option.map_eq_some_iff.mp found
  have member := List.mem_of_find?_eq_some search
  obtain rfl : value = _ := same
  obtain ⟨rest, start⟩ : ∃ rest, event.text ts = openBrace :: rest := by
    unfold AuditEvent.text
    split <;> exact ⟨_, rfl⟩
  rw [start] at parsed
  have standing := parse_strings parsed member held
  rw [← start] at standing
  -- the line around the subject, cut at its commas
  have before : ¬ [quote, quote, quote] <:+: (openBrace :: ascii " timestamp: \"") ++ ts ++
      ascii "\"" ++ comma :: (ascii " event: \"" ++ event.event ++ ascii "\"" ++
        comma :: ascii " subject: \"") := by
    intro occurs
    rcases infix_cut _ (by decide) occurs with first | later
    · exact piece_count own.stamp.1 (by decide) (by decide) first
    rcases infix_cut _ (by decide) later with second | third
    · exact piece_count own.name.1 (by decide) (by decide) second
    · exact no_triple (by decide) third
  have last : ¬ [quote, quote, quote] <:+: ascii " result: \"" ++ event.resultText ++
      (ascii "\" " ++ [closeBrace, newline]) :=
    piece_count own.result.1 (by decide) (by decide)
  have name : ascii "\", event: \"" = ascii "\"" ++ comma :: ascii " event: \"" := by decide
  have who : ascii "\", subject: \"" =
      ascii "\"" ++ comma :: (ascii " subject: " ++ [quote]) := by decide
  have what : ascii "\", target: \"" = [quote] ++ comma :: ascii " target: \"" := by decide
  have outcome : ascii "\", result: \"" = [quote] ++ comma :: ascii " result: \"" := by decide
  obtain ⟨back, shape, behind⟩ : ∃ back, event.text ts =
      ((openBrace :: ascii " timestamp: \"") ++ ts ++ ascii "\"" ++ comma :: (ascii " event: \"" ++
        event.event ++ ascii "\"" ++ comma :: ascii " subject: ")) ++ [quote] ++
          event.subjectText ++ [quote] ++ back ∧ ¬ [quote, quote, quote] <:+: back := by
    unfold AuditEvent.text
    rw [name, who, what, outcome]
    split
    · refine ⟨comma :: (ascii " result: \"" ++ event.resultText ++
        (ascii "\" " ++ [closeBrace, newline])), by simp, fun occurs => ?_⟩
      rcases infix_cut [] (by decide) occurs with first | second
      · exact no_triple (by decide) first
      · exact last second
    · refine ⟨comma :: (ascii " target: \"" ++ safeTarget (event.target.getD []) ++ [quote] ++
        comma :: (ascii " result: \"" ++ event.resultText ++
          (ascii "\" " ++ [closeBrace, newline]))), by simp, fun occurs => ?_⟩
      rcases infix_cut [] (by decide) occurs with first | later
      · exact no_triple (by decide) first
      rcases infix_cut _ (by decide) later with second | third
      · exact piece_count (safeTarget_quote _) (by decide) (by decide) second
      · exact last third
  rw [shape] at standing
  refine not_framed ?_ behind standing
  have subject : ascii " subject: \"" = ascii " subject: " ++ [quote] := by decide
  rw [subject] at before
  simpa using before

/-- What is appended for a recorded event is its whole text. -/
theorem text_of_recorded {ts body : Bytes} {event : AuditEvent}
    (logged : ∀ logs : AuditLogs, auditLog logs ts event =
      .done (logs.append (auditCategory event.event) (body ++ [newline]))) :
    event.text ts = body ++ [newline] ∧ (event.text ts).length < 1024 := by
  have written := logged ⟨fun _ => some [], fun _ => none⟩
  simp only [auditLog, reduceCtorEq, false_and, if_false] at written
  cases line : auditLine ts event with
  | overrun =>
    rw [line] at written
    cases written
  | done bytes =>
    rw [line, Outcome.bind_done] at written
    have file := congrArg (fun logs => logs.files (auditCategory event.event))
      (Outcome.done.inj written)
    simp only [AuditLogs.append, if_true, Option.map_some, List.nil_append,
      Option.some.injEq] at file
    subst file
    unfold auditLine at line
    dsimp only at line
    split at line
    · next short => exact ⟨Outcome.done.inj line, short⟩
    · split at line
      · have last := congrArg List.getLast? (Outcome.done.inj line)
        simp at last
      · cases line

/-- A recorded event is clean. -/
theorem clean_of_recorded {ts : Bytes} {event : AuditEvent} (own : OwnTexts ts event)
    (recorded : Recorded ts event) : CleanEvent ts event := by
  obtain ⟨body, single, logged, entries, parsed, -, who, what, -⟩ := recorded
  obtain ⟨whole, size⟩ := text_of_recorded logged
  rw [← whole] at parsed
  -- no field ends the line
  obtain ⟨same, ends, lines⟩ := recordLine_lines (event.fields ts)
  rw [← event.text_eq, whole] at ends
  obtain rfl := (List.append_inj' ends rfl).1
  have free (field : Bytes × Bytes) (member : field ∈ event.fields ts) : newline ∉ field.2 :=
    fun inside => single (lines.mpr ⟨field, member, .inr inside⟩)
  have subject : IsPlain event.subjectText :=
    ⟨subject_free own parsed who, free (ascii "subject", event.subjectText)
      (by simp [AuditEvent.fields])⟩
  have targetFree : newline ∉ safeTarget (event.target.getD []) := by
    by_cases empty : event.target.getD [] = []
    · rw [empty]
      exact List.not_mem_nil
    · exact free (ascii "target", safeTarget (event.target.getD []))
        (by simp [AuditEvent.fields, empty])
  -- then the target is read back as far as it was printed
  have reading := (event.parse_text own subject ⟨safeTarget_quote _, targetFree⟩).2
  rw [parsed] at reading
  obtain rfl := Value.map.inj (Except.ok.inj reading)
  rw [(event.entries_get ts).2.2.1] at what
  refine ⟨subject, fun target member => ?_, size⟩
  rw [Option.mem_def] at member
  simp only [AuditEvent.loggedTarget, member, Option.getD_some] at what targetFree
  by_cases empty : target = []
  · simp [empty]
  · rw [if_neg empty, if_neg empty, Option.map_some] at what
    have printed := Value.string.inj (Option.some.inj what)
    have lengths := congrArg List.length printed
    simp only [safeTarget, List.length_map, List.length_take] at lengths
    have short : target.length ≤ 511 := by omega
    refine ⟨fun inside => targetFree ?_, short⟩
    rw [printed]
    exact List.mem_map.mpr ⟨newline, inside, by decide⟩

/-- A number is printed in digits and a sign. -/
theorem decimal_plain (number : Int) : IsPlain (decimal number) := by
  have digits (natural : Nat) : IsPlain (decimalNat natural) := by
    obtain ⟨-, all, -⟩ := decimalNat_spec natural
    exact ⟨fun member => absurd (all quote member).1 (by decide),
      fun member => absurd (all newline member).1 (by decide)⟩
  cases number with
  | ofNat natural => exact digits natural
  | negSucc natural =>
    obtain ⟨quoteFree, lineFree⟩ := digits (natural + 1)
    exact ⟨by rw [decimal, List.mem_cons, not_or]; exact ⟨by decide, quoteFree⟩,
      by rw [decimal, List.mem_cons, not_or]; exact ⟨by decide, lineFree⟩⟩

theorem twoDigits_plain (number : Int) : IsPlain (twoDigits number) := by
  obtain ⟨quoteFree, lineFree⟩ := decimal_plain number
  unfold twoDigits
  split
  · exact ⟨by simp [quoteFree], by simp [lineFree]⟩
  · exact ⟨quoteFree, lineFree⟩

/-- A timestamp is plain. -/
theorem utcText_plain (now : Int) : IsPlain (utcText now) := by
  have append {left right : Bytes} (first : IsPlain left) (second : IsPlain right) :
      IsPlain (left ++ right) :=
    ⟨by simp [first.1, second.1], by simp [first.2, second.2]⟩
  have sign : ∀ text ∈ [ascii "-", ascii "T", ascii ":", ascii "Z"], IsPlain text := by
    decide +kernel
  unfold utcText
  repeat' apply append
  all_goals first
    | exact decimal_plain _
    | exact twoDigits_plain _
    | exact sign _ (by simp)

/-- What the handlers pass is plain. -/
theorem ownTexts (now : Int) {event : AuditEvent} (name : event.event ∈ auditEvents)
    (result : ∀ result ∈ event.result, result ∈ auditResults) : OwnTexts (utcText now) event := by
  have names : ∀ name ∈ auditEvents, IsPlain name := by decide +kernel
  have results : ∀ result ∈ auditResults, IsPlain result := by decide +kernel
  refine ⟨utcText_plain now, names _ name, ?_⟩
  unfold AuditEvent.resultText
  cases outcome : event.result with
  | none => exact results _ (by decide)
  | some text => exact results _ (result text outcome)

/-- The events of a run, one after the other. -/
def auditRun (logs : AuditLogs) : List (Int × AuditEvent) → Outcome AuditLogs
  | [] => .done logs
  | (now, event) :: events =>
    (auditLog logs (utcText now) event).bind fun logs => auditRun logs events

/-- A run of clean events adds one line for each of them to the file of its category. -/
theorem auditRun_lines {events : List (Int × AuditEvent)}
    (recorded : ∀ entry ∈ events, Recorded (utcText entry.1) entry.2) (logs : AuditLogs) :
    ∃ after, auditRun logs events = .done after ∧ ∀ category,
      (after.files category).map (List.count newline) =
        (logs.files category).map fun file => file.count newline +
          events.countP fun entry => auditCategory entry.2.event = category := by
  induction events generalizing logs with
  | nil => exact ⟨logs, rfl, fun category => by simp⟩
  | cons entry events ih =>
    obtain ⟨now, event⟩ := entry
    obtain ⟨body, single, logged, -⟩ := recorded (now, event) List.mem_cons_self
    obtain ⟨after, ran, counts⟩ := ih (fun other member =>
      recorded other (List.mem_cons_of_mem _ member))
      (logs.append (auditCategory event.event) (body ++ [newline]))
    refine ⟨after, by rw [auditRun, logged, Outcome.bind_done, ran], fun category => ?_⟩
    rw [counts]
    have one : (body ++ [newline]).count newline = 1 := by
      rw [List.count_append, List.count_eq_zero.mpr single]
      rfl
    by_cases same : category = auditCategory event.event
    · cases file : logs.files category with
      | none => simp [AuditLogs.append, ← same, file]
      | some bytes =>
        simp only [AuditLogs.append, ← same, file, if_true, Option.map_some, List.count_append,
          Option.some.injEq, decide_true, List.countP_cons_of_pos]
        rw [← List.count_append, one]
        omega
    · simp [AuditLogs.append, same, Ne.symm same]

/-- An event is recorded on one line that says what was logged if and only if its texts are clean. -/
theorem auditLog_recorded_iff (now : Int) (event : AuditEvent) (name : event.event ∈ auditEvents)
    (result : ∀ result ∈ event.result, result ∈ auditResults) :
    Recorded (utcText now) event ↔ CleanEvent (utcText now) event :=
  ⟨clean_of_recorded (ownTexts now name result), recorded_of_clean (ownTexts now name result)⟩

/-- A published artifact. -/
def publishedEvent : AuditEvent where
  event := ascii "publish"
  subject := some (ascii "alice")
  target := some (ascii "central/com/example/\"mylib\"/1.0.0/mylib.tar")
  result := some (ascii "ok")

theorem auditLog_recorded_publish : Recorded (utcText 1700000000) publishedEvent :=
  (auditLog_recorded_iff 1700000000 publishedEvent (by decide) (by decide)).mpr
    ⟨by decide, by decide +kernel, by decide +kernel⟩

/-- What `DELETE /admin/policies/eve%22,%20subject:%20%22root` logs: the decoded path brings a subject of
its own. -/
def forgedEvent : AuditEvent where
  event := ascii "admin"
  subject := some (ascii "eve\", subject: \"root")
  target := some (ascii "policy-delete")
  result := some (ascii "ok")

/-- The name of a policy in the path of a request adds a subject of its own to the entry. -/
theorem auditLog_forged : ¬ ∀ (now : Int) (event : AuditEvent), event.event ∈ auditEvents →
    (∀ result ∈ event.result, result ∈ auditResults) → Recorded (utcText now) event := by
  intro recorded
  have results : ∀ result ∈ forgedEvent.result, result ∈ auditResults := by decide
  have clean := clean_of_recorded (ownTexts 1700000000 (by decide) results)
    (recorded 1700000000 forgedEvent (by decide) results)
  exact absurd clean.subject (by decide)

end Cookbook.Server
