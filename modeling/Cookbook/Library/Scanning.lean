import Cookbook.Library.Buffer
import Cookbook.Library.Number

/-!
# Scans of memory without a terminator

The string functions of C read until they have found what they look for or the terminator. Given
memory without a terminator they read past its last byte, which is an overrun here. A scan that stays
inside its memory is settled: whatever stands behind, it finds the same.
-/
namespace Library.Text

/-- `strstr`: the memory is read up to the end of the first match or up to the terminator. -/
def findStr (pattern : Bytes) : Bytes → Outcome (Option Bytes)
  | [] => .overrun
  | c :: rest =>
    if pattern.isPrefixOf (c :: rest) then .done (some (c :: rest))
    else if c = 0 then .done none
    else findStr pattern rest

/-- `strchr` -/
def findChr (stop : UInt8) : Bytes → Outcome (Option Bytes)
  | [] => .overrun
  | c :: rest =>
    if c = stop then .done (some (c :: rest)) else if c = 0 then .done none else findChr stop rest

/-- `while (accept(*p)) p++` -/
def skipWhile (accept : UInt8 → Bool) : Bytes → Outcome Bytes
  | [] => .overrun
  | c :: rest => if accept c then skipWhile accept rest else .done (c :: rest)

/-- A whole C string, as `strlen` measures it. -/
def readString (memory : Bytes) : Outcome Bytes :=
  (findChr 0 memory).bind fun _ => .done (cString memory)

/-- `atoi`: white space, a sign and digits are read up to the first other character. -/
def readNumber (memory : Bytes) : Outcome Int :=
  (skipWhile isSpace memory).bind fun p =>
    (skipWhile isDecimal (readSign p).2).bind fun _ => .done (atoi memory)

/-- A scan that stays inside its memory finds the same whatever stands behind. -/
def Settled {α : Type} (scan : Bytes → Outcome α) : Prop :=
  ∀ memory more value, scan memory = .done value → scan (memory ++ more) = .done value

section Searches

variable {pattern : Bytes} {stop : UInt8} {accept : UInt8 → Bool}

/-- A search that ends has seen the terminator or a match. -/
theorem findStr_seen {memory : Bytes} {found : Option Bytes}
    (inside : findStr pattern memory = .done found) :
    0 ∈ memory ∨ pattern.length ≤ memory.length := by
  induction memory with
  | nil => cases inside
  | cons c rest ih =>
    rw [findStr] at inside
    by_cases front : pattern.isPrefixOf (c :: rest) = true
    · exact .inr (List.isPrefixOf_iff_prefix.mp front).length_le
    · rw [if_neg front] at inside
      by_cases ended : c = 0
      · exact .inl (by rw [ended]; exact List.mem_cons_self)
      · rw [if_neg ended] at inside
        rcases ih inside with terminated | long
        · exact .inl (List.mem_cons_of_mem _ terminated)
        · exact .inr (Nat.le_succ_of_le long)

/-- A pattern in front of longer memory is in front of the memory that was searched. -/
theorem prefix_of_seen {memory more : Bytes} (free : 0 ∉ pattern)
    (seen : 0 ∈ memory ∨ pattern.length ≤ memory.length) (front : pattern <+: memory ++ more) :
    pattern <+: memory := by
  by_cases long : pattern.length ≤ memory.length
  · exact List.prefix_of_prefix_length_le front (List.prefix_append _ _) long
  · have covers : memory <+: pattern :=
      List.prefix_of_prefix_length_le (List.prefix_append _ _) front (Nat.le_of_not_le long)
    exact absurd (covers.subset (seen.resolve_right long)) free

/-- A match inside the memory stays the first one. -/
theorem findStr_append (free : 0 ∉ pattern) {memory : Bytes} {found : Option Bytes} (more : Bytes)
    (inside : findStr pattern memory = .done found) :
    findStr pattern (memory ++ more) = .done (found.map (· ++ more)) := by
  induction memory with
  | nil => cases inside
  | cons c rest ih =>
    have seen := findStr_seen inside
    rw [findStr] at inside
    rw [List.cons_append, findStr, ← List.cons_append]
    have same : pattern.isPrefixOf (c :: rest ++ more) = pattern.isPrefixOf (c :: rest) := by
      rw [Bool.eq_iff_iff, List.isPrefixOf_iff_prefix, List.isPrefixOf_iff_prefix]
      exact ⟨prefix_of_seen free seen, fun front => front.trans (List.prefix_append _ _)⟩
    rw [same]
    split_ifs at inside ⊢ with front ended
    · cases inside
      rfl
    · cases inside
      rfl
    · exact ih inside

/-- What is found starts with the pattern. -/
theorem findStr_front {memory p : Bytes} (inside : findStr pattern memory = .done (some p)) :
    pattern <+: p := by
  induction memory with
  | nil => cases inside
  | cons c rest ih =>
    rw [findStr] at inside
    split_ifs at inside with front ended
    · cases inside
      exact List.isPrefixOf_iff_prefix.mp front
    · cases inside
    · exact ih inside

/-- A search in memory with a terminator ends, and what it finds still has the terminator behind the
pattern. -/
theorem findStr_terminated (free : 0 ∉ pattern) {memory : Bytes} (terminated : 0 ∈ memory) :
    ∃ found, findStr pattern memory = .done found ∧ ∀ p ∈ found, 0 ∈ p.drop pattern.length := by
  induction memory with
  | nil => exact absurd terminated List.not_mem_nil
  | cons c rest ih =>
    rw [findStr]
    split_ifs with front ended
    · refine ⟨_, rfl, fun p member => ?_⟩
      cases member
      obtain ⟨tail, whole⟩ := List.isPrefixOf_iff_prefix.mp front
      rw [← whole, List.drop_left]
      rw [← whole, List.mem_append] at terminated
      exact terminated.resolve_left free
    · exact ⟨none, rfl, fun p member => by cases member⟩
    · exact ih ((List.mem_cons.mp terminated).resolve_left fun same => ended same.symm)

/-- Without a terminator the search ends exactly at a match. -/
theorem findStr_open (nonempty : pattern ≠ []) {memory : Bytes} (terminated : 0 ∉ memory) :
    findStr pattern memory =
      match strstr pattern memory with
      | some p => .done (some p)
      | none => .overrun := by
  induction memory with
  | nil => rw [findStr, strstr, if_neg nonempty]
  | cons c rest ih =>
    have other : c ≠ 0 := fun same => terminated (by rw [same]; exact List.mem_cons_self)
    rw [findStr, strstr, if_neg other]
    split_ifs with front
    · rfl
    · exact ih fun member => terminated (List.mem_cons_of_mem _ member)

/-- A character found inside the memory stays the first one. -/
theorem findChr_append {memory : Bytes} {found : Option Bytes} (more : Bytes)
    (inside : findChr stop memory = .done found) :
    findChr stop (memory ++ more) = .done (found.map (· ++ more)) := by
  induction memory with
  | nil => cases inside
  | cons c rest ih =>
    rw [findChr] at inside
    rw [List.cons_append, findChr]
    split_ifs at inside ⊢ with same ended
    · cases inside
      rfl
    · cases inside
      rfl
    · exact ih inside

/-- What is found starts with the character, and no other character was read before. -/
theorem findChr_front {memory p : Bytes} (inside : findChr stop memory = .done (some p)) :
    ∃ front rest, memory = front ++ stop :: rest ∧ p = stop :: rest ∧ stop ∉ front := by
  induction memory with
  | nil => cases inside
  | cons c rest ih =>
    rw [findChr] at inside
    split_ifs at inside with same ended
    · cases inside
      exact ⟨[], rest, by rw [same]; rfl, by rw [same], List.not_mem_nil⟩
    · cases inside
    · obtain ⟨front, tail, whole, found, new⟩ := ih inside
      refine ⟨c :: front, tail, by rw [whole]; rfl, found, ?_⟩
      rw [List.mem_cons, not_or]
      exact ⟨fun equal => same equal.symm, new⟩

/-- Neither was a terminator. -/
theorem findChr_zero {memory p : Bytes} (inside : findChr stop memory = .done (some p)) :
    0 ∉ memory.takeWhile (· != stop) := by
  induction memory with
  | nil => cases inside
  | cons c rest ih =>
    rw [findChr] at inside
    rw [List.takeWhile_cons]
    split_ifs at inside with same ended
    · simp [same]
    · cases inside
    · rw [if_pos (by simpa using same), List.mem_cons, not_or]
      exact ⟨fun zero => ended zero.symm, ih inside⟩

/-- A search for another character in memory with a terminator ends in front of it. -/
theorem findChr_terminated (other : stop ≠ 0) {memory : Bytes} (terminated : 0 ∈ memory) :
    ∃ found, findChr stop memory = .done found ∧ ∀ p ∈ found, 0 ∈ p.drop 1 := by
  induction memory with
  | nil => exact absurd terminated List.not_mem_nil
  | cons c rest ih =>
    rw [findChr]
    split_ifs with same ended
    · refine ⟨_, rfl, fun p member => ?_⟩
      cases member
      exact (List.mem_cons.mp terminated).resolve_left fun zero => other (by rw [← same, ← zero])
    · exact ⟨none, rfl, fun p member => by cases member⟩
    · exact ih ((List.mem_cons.mp terminated).resolve_left fun zero => ended zero.symm)

/-- Without a terminator the search ends exactly when the character is there. -/
theorem findChr_open {memory : Bytes} (terminated : 0 ∉ memory) :
    findChr stop memory =
      if stop ∈ memory then .done (some (memory.dropWhile (· != stop))) else .overrun := by
  induction memory with
  | nil => rfl
  | cons c rest ih =>
    have other : c ≠ 0 := fun same => terminated (by rw [same]; exact List.mem_cons_self)
    have later := ih fun member => terminated (List.mem_cons_of_mem _ member)
    rw [findChr, if_neg other, List.dropWhile_cons, later]
    by_cases same : c = stop
    · subst same
      simp
    · have new : stop ∈ c :: rest ↔ stop ∈ rest := by
        rw [List.mem_cons, or_iff_right fun equal => same equal.symm]
      simp [same, new]

/-- The character is found behind a text without it and without a terminator. -/
theorem findChr_stop {run : Bytes} (rest : Bytes) (free : stop ∉ run) (terminated : 0 ∉ run) :
    findChr stop (run ++ stop :: rest) = .done (some (stop :: rest)) := by
  induction run with
  | nil => rw [List.nil_append, findChr, if_pos rfl]
  | cons c run ih =>
    rw [List.mem_cons, not_or] at free terminated
    rw [List.cons_append, findChr, if_neg fun same => free.1 same.symm,
      if_neg fun zero => terminated.1 zero.symm, ih free.2 terminated.2]

/-- A run that ends inside the memory ends there. -/
theorem skipWhile_append {memory p : Bytes} (more : Bytes)
    (inside : skipWhile accept memory = .done p) :
    skipWhile accept (memory ++ more) = .done (p ++ more) ∧ p ≠ [] := by
  induction memory with
  | nil => cases inside
  | cons c rest ih =>
    rw [skipWhile] at inside
    rw [List.cons_append, skipWhile]
    split_ifs at inside ⊢ with accepted
    · exact ih inside
    · cases inside
      exact ⟨rfl, List.cons_ne_nil _ _⟩

/-- A run of characters that are no terminator ends in front of the terminator. -/
theorem skipWhile_terminated (refuses : accept 0 = false) {memory : Bytes}
    (terminated : 0 ∈ memory) : ∃ p, skipWhile accept memory = .done p ∧ 0 ∈ p := by
  induction memory with
  | nil => exact absurd terminated List.not_mem_nil
  | cons c rest ih =>
    rw [skipWhile]
    split_ifs with accepted
    · refine ih ((List.mem_cons.mp terminated).resolve_left fun zero => ?_)
      rw [← zero, refuses] at accepted
      cases accepted
    · exact ⟨_, rfl, terminated⟩

/-- A run ends inside the memory exactly when it does not take all of it. -/
theorem skipWhile_eq (memory : Bytes) :
    skipWhile accept memory =
      if memory.dropWhile accept = [] then .overrun else .done (memory.dropWhile accept) := by
  induction memory with
  | nil => rfl
  | cons c rest ih =>
    rw [skipWhile, List.dropWhile_cons]
    by_cases accepted : accept c = true
    · rw [if_pos accepted, if_pos accepted, ih]
    · rw [if_neg accepted, if_neg accepted, if_neg (List.cons_ne_nil _ _)]

end Searches

/-- The text in front of a terminator does not change with what stands behind. -/
theorem readString_settled : Settled readString := by
  intro memory more value inside
  cases search : findChr 0 memory with
  | overrun =>
    rw [readString, search] at inside
    cases inside
  | done found =>
    rw [readString, search] at inside
    cases inside
    rw [readString, findChr_append more search, Outcome.bind_done]
    have terminated : 0 ∈ memory := by
      by_contra free
      rw [findChr_open free, if_neg free] at search
      cases search
    obtain ⟨front, rest, whole, free⟩ := List.eq_append_cons_of_mem terminated
    rw [whole, List.append_assoc, List.cons_append, cString, cString, takeWhile_ne_stop free,
      takeWhile_ne_stop free]

/-- A string is read to its end exactly when the memory has a terminator. -/
theorem readString_inside_iff (memory : Bytes) :
    (∃ value, readString memory = .done value) ↔ 0 ∈ memory := by
  constructor
  · rintro ⟨value, inside⟩
    by_contra free
    rw [readString, findChr_open free, if_neg free] at inside
    cases inside
  · intro terminated
    obtain ⟨front, rest, whole, free⟩ := List.eq_append_cons_of_mem terminated
    refine ⟨cString memory, ?_⟩
    have found : ∃ p, findChr 0 memory = .done p := by
      clear terminated
      subst whole
      induction front with
      | nil => exact ⟨_, by rw [List.nil_append, findChr, if_pos rfl]⟩
      | cons c front ih =>
        rw [List.mem_cons, not_or] at free
        obtain ⟨p, done⟩ := ih free.2
        have other : ¬ c = 0 := fun zero => free.1 zero.symm
        exact ⟨p, by rw [List.cons_append, findChr, if_neg other, if_neg other, done]⟩
    obtain ⟨p, done⟩ := found
    rw [readString, done, Outcome.bind_done]

/-- The rest of a number inside the memory, behind its white space and sign. -/
def digitsOf (memory : Bytes) : Bytes := (readSign (memory.dropWhile isSpace)).2

/-- Where a sign ends does not change with what stands behind. -/
theorem readSign_append {p : Bytes} (nonempty : p ≠ []) (more : Bytes) :
    readSign (p ++ more) = ((readSign p).1, (readSign p).2 ++ more) := by
  cases p with
  | nil => exact absurd rfl nonempty
  | cons c rest =>
    rw [List.cons_append, readSign, readSign]
    split_ifs <;> rfl

/-- A number is read to its end exactly when its digits do not end the memory. -/
theorem readNumber_eq (memory : Bytes) :
    readNumber memory =
      if (digitsOf memory).dropWhile isDecimal = [] then .overrun else .done (atoi memory) := by
  rw [readNumber, skipWhile_eq, digitsOf]
  by_cases blank : memory.dropWhile isSpace = []
  · rw [if_pos blank, blank, Outcome.bind_overrun]
    rfl
  · rw [if_neg blank, Outcome.bind_done, skipWhile_eq]
    split <;> rfl

/-- In memory with a terminator a number ends. -/
theorem readNumber_terminated {memory : Bytes} (terminated : 0 ∈ memory) :
    readNumber memory = .done (atoi memory) := by
  obtain ⟨p, skipped, later⟩ :=
    skipWhile_terminated (by decide : isSpace 0 = false) terminated
  have behind : 0 ∈ (readSign p).2 := by
    cases p with
    | nil => exact absurd later List.not_mem_nil
    | cons c rest =>
      rw [readSign]
      split_ifs with minus plus
      · exact (List.mem_cons.mp later).resolve_left fun zero => by rw [← zero] at minus; cases minus
      · exact (List.mem_cons.mp later).resolve_left fun zero => by rw [← zero] at plus; cases plus
      · exact later
  obtain ⟨_, digits, _⟩ := skipWhile_terminated (by decide : isDecimal 0 = false) behind
  rw [readNumber, skipped, Outcome.bind_done, digits, Outcome.bind_done]

/-- A number does not change with what stands behind. -/
theorem readNumber_settled : Settled readNumber := by
  intro memory more value inside
  have blank : ∀ {run : Bytes} {accept : UInt8 → Bool}, run.dropWhile accept ≠ [] →
      (run ++ more).dropWhile accept = run.dropWhile accept ++ more ∧
        (run ++ more).takeWhile accept = run.takeWhile accept := by
    intro run accept refused
    induction run with
    | nil => exact absurd rfl refused
    | cons c run ih =>
      rw [List.cons_append, List.dropWhile_cons, List.dropWhile_cons, List.takeWhile_cons,
        List.takeWhile_cons]
      by_cases accepted : accept c = true
      · rw [List.dropWhile_cons, if_pos accepted] at refused
        obtain ⟨dropped, taken⟩ := ih refused
        simp only [if_pos accepted, dropped, taken, and_self]
      · simp only [if_neg accepted, List.cons_append, and_self]
  rw [readNumber_eq] at inside ⊢
  by_cases all : (digitsOf memory).dropWhile isDecimal = []
  · rw [if_pos all] at inside
    cases inside
  · rw [if_neg all] at inside
    cases inside
    have some : memory.dropWhile isSpace ≠ [] := by
      intro none
      rw [digitsOf, none] at all
      exact all rfl
    have spaces := (blank some).1
    have signed := readSign_append some more
    have digits : digitsOf (memory ++ more) = digitsOf memory ++ more := by
      rw [digitsOf, spaces, signed]
      rfl
    obtain ⟨dropped, taken⟩ := blank all
    have more_left : ¬ (digitsOf (memory ++ more)).dropWhile isDecimal = [] := by
      rw [digits, dropped]
      exact fun none => all (List.append_eq_nil_iff.mp none).1
    rw [if_neg more_left, atoi, atoi, strtoll, strtoll, spaces, signed]
    simp only [digitsOf] at taken
    simp only [taken]

/-! ## Composed scans -/

/-- A scan that ends in memory with a terminator, and in other memory exactly where a condition
holds. -/
structure Bounded {α : Type} (scan : Bytes → Outcome α) (inside : Bytes → Prop) : Prop where
  /-- What stands behind is not seen. -/
  settled : Settled scan
  /-- Where the scan ends. -/
  ends_iff : ∀ memory, (∃ value, scan memory = .done value) ↔ 0 ∈ memory ∨ inside memory

namespace Bounded

variable {α β : Type} {scan : Bytes → Outcome α} {inside other : Bytes → Prop}

/-- A value that needs no scan. -/
theorem pure (value : α) : Bounded (fun _ => .done value) fun _ => True where
  settled := fun _ _ _ same => same
  ends_iff := fun _ => iff_of_true ⟨value, rfl⟩ (.inr trivial)

/-- The condition matters only for memory without a terminator. -/
theorem congr (bounded : Bounded scan inside)
    (same : ∀ memory, 0 ∉ memory → (inside memory ↔ other memory)) : Bounded scan other where
  settled := bounded.settled
  ends_iff := by
    intro memory
    rw [bounded.ends_iff]
    by_cases terminated : 0 ∈ memory
    · exact iff_of_true (.inl terminated) (.inl terminated)
    · rw [or_iff_right terminated, or_iff_right terminated, same memory terminated]

/-- A second scan of the same memory, chosen by what the first one finds. -/
theorem next {next : α → Bytes → Outcome β} {insideNext : α → Bytes → Prop}
    (bounded : Bounded scan inside) (more : ∀ value, Bounded (next value) (insideNext value)) :
    Bounded (fun memory => (scan memory).bind fun value => next value memory)
      fun memory => inside memory ∧ ∀ value, scan memory = .done value → insideNext value memory where
  settled := by
    intro memory behind value ends
    dsimp only at ends ⊢
    cases first : scan memory with
    | overrun =>
      rw [first] at ends
      cases ends
    | done found =>
      rw [first, Outcome.bind_done] at ends
      rw [bounded.settled memory behind found first, Outcome.bind_done]
      exact (more found).settled memory behind value ends
  ends_iff := by
    intro memory
    have first := bounded.ends_iff memory
    constructor
    · rintro ⟨value, ends⟩
      rw [or_iff_not_imp_left]
      intro free
      cases found : scan memory with
      | overrun =>
        rw [found] at ends
        cases ends
      | done found' =>
        refine ⟨(first.mp ⟨found', found⟩).resolve_left free, fun same equal => ?_⟩
        cases equal
        rw [found, Outcome.bind_done] at ends
        exact (((more found').ends_iff memory).mp ⟨value, ends⟩).resolve_left free
    · intro either
      obtain ⟨found, done⟩ := first.mpr (either.imp_right And.left)
      rw [done, Outcome.bind_done]
      exact ((more found).ends_iff memory).mpr (either.imp_right fun both => both.2 found done)

/-- A second scan of the same memory with a condition of its own. -/
theorem andThen {next : α → Bytes → Outcome β} (bounded : Bounded scan inside)
    (more : ∀ value, Bounded (next value) other) :
    Bounded (fun memory => (scan memory).bind fun value => next value memory)
      fun memory => inside memory ∧ other memory := by
  refine (bounded.next more).congr fun memory free => ?_
  constructor
  · rintro ⟨first, second⟩
    obtain ⟨value, done⟩ := (bounded.ends_iff memory).mpr (.inr first)
    exact ⟨first, second value done⟩
  · rintro ⟨first, second⟩
    exact ⟨first, fun _ _ => second⟩

/-- What a scan finds, in another form. -/
theorem map (bounded : Bounded scan inside) (form : α → β) :
    Bounded (fun memory => (scan memory).bind fun value => .done (form value)) inside := by
  refine (bounded.andThen fun value => pure (form value)).congr fun memory _ => ?_
  exact and_iff_left trivial

end Bounded

/-- A scan behind the first match of a key, with a default where there is none. -/
def behindStr {α : Type} (key : Bytes) (absent : α) (scan : Bytes → Outcome α) (memory : Bytes) :
    Outcome α :=
  (findStr key memory).bind fun found =>
    match found with
    | none => .done absent
    | some p => scan (p.drop key.length)

/-- The first match of a key is there, and a condition holds behind it. -/
def BehindStr (key : Bytes) (inside : Bytes → Prop) (memory : Bytes) : Prop :=
  ∃ p ∈ strstr key memory, inside (p.drop key.length)

/-- A scan behind a key ends where the key is there and the scan ends behind it. -/
theorem Bounded.behindStr {α : Type} {scan : Bytes → Outcome α} {inside : Bytes → Prop}
    (bounded : Bounded scan inside) {key : Bytes} (nonempty : key ≠ []) (free : 0 ∉ key)
    (absent : α) : Bounded (behindStr key absent scan) (BehindStr key inside) where
  settled := by
    intro memory more value ends
    cases search : findStr key memory with
    | overrun =>
      rw [Text.behindStr, search] at ends
      cases ends
    | done found =>
      rw [Text.behindStr, search, Outcome.bind_done] at ends
      rw [Text.behindStr, findStr_append free more search, Outcome.bind_done]
      cases found with
      | none => exact ends
      | some p =>
        have front := findStr_front search
        simp only [Option.map_some]
        rw [List.drop_append_of_le_length front.length_le]
        exact bounded.settled _ more value ends
  ends_iff := by
    intro memory
    by_cases terminated : 0 ∈ memory
    · refine iff_of_true ?_ (.inl terminated)
      obtain ⟨found, search, later⟩ := findStr_terminated free terminated
      rw [Text.behindStr, search, Outcome.bind_done]
      cases found with
      | none => exact ⟨absent, rfl⟩
      | some p => exact (bounded.ends_iff _).mpr (.inl (later p rfl))
    · rw [or_iff_right terminated, Text.behindStr, findStr_open nonempty terminated, BehindStr]
      cases search : strstr key memory with
      | none =>
        refine iff_of_false ?_ ?_
        · rintro ⟨value, ends⟩
          cases ends
        · rintro ⟨p, member, _⟩
          cases member
      | some p =>
        have rest : 0 ∉ p.drop key.length := fun zero =>
          terminated ((strstr_some search).1.subset (List.mem_of_mem_drop zero))
        have ends := bounded.ends_iff (p.drop key.length)
        rw [or_iff_right rest] at ends
        rw [Outcome.bind_done, ends]
        exact ⟨fun holds => ⟨p, rfl, holds⟩, fun ⟨_, same, holds⟩ => by cases same; exact holds⟩

end Library.Text
