import Cookbook.Ldap.BindResponse
import Cookbook.Library.Separated

/-!
# Entries of a search

A server answers a search with entries, each with a name and attributes. The client walks through the
elements of an entry, one inside the other, and collects the values of one attribute.
-/
namespace Cookbook.Ldap

open Library.Text Library.Ber Library.Pieces Tls

/-! ## Entries -/

/-- An attribute of an entry. -/
structure Attribute where
  /-- `type` -/
  type : Bytes
  /-- `vals` -/
  vals : List Bytes

/-- A `SearchResultEntry` with the number of its message. -/
structure Entry where
  /-- `messageID` -/
  id : Bytes
  /-- `objectName` -/
  name : Bytes
  /-- `attributes` -/
  attributes : List Attribute
  /-- The number is one. -/
  numbered : IsMessageId id

/-- The values of a `SET`. -/
def writeValues (vals : List Bytes) : Bytes := vals.flatMap (writeElement berOctetStr)

/-- A `PartialAttribute`. -/
def Attribute.write (attr : Attribute) : Bytes :=
  writeElement berSequence (writeElement berOctetStr attr.type ++
    writeElement berSet (writeValues attr.vals))

/-- The attributes of an entry. -/
def writeAttributes (attributes : List Attribute) : Bytes := attributes.flatMap Attribute.write

/-- Name and attributes of an entry. -/
def Entry.body (entry : Entry) : Bytes :=
  writeElement berOctetStr entry.name ++
    writeElement berSequence (writeAttributes entry.attributes)

/-- The message of an entry as servers write it. -/
def Entry.message (entry : Entry) : Bytes :=
  writeElement berSequence (writeElement berInteger entry.id ++
    writeElement ldapSearchEntry entry.body)

/-- The values of an attribute, whose type is compared without case. -/
def Entry.values (entry : Entry) (wantAttr : Bytes) : List Bytes :=
  (entry.attributes.filter fun attr => attrMatches attr.type wantAttr).flatMap (·.vals)

/-- The values as the client collects them. -/
def collect (result : Option Bytes) (values : List Bytes) : Option Bytes :=
  values.foldl (fun result value => some (appendName result (commonName value))) result

/-- Names behind other ones. -/
theorem collect_some {names : Bytes} (some : names ≠ []) (values : List Bytes) :
    collect (.some names) values =
      .some (names ++ (values.map commonName).flatMap (comma :: ·)) := by
  induction values generalizing names with
  | nil => simp [collect]
  | cons value values ih =>
    have step : collect (.some names) (value :: values) =
        collect (.some (names ++ comma :: commonName value)) values := by
      rw [collect, List.foldl_cons, appendName]
      · rfl
      · exact fun none => some none
    rw [step, ih (by simp)]
    simp

/-- The client joins names with commas, but not behind empty names in front. -/
theorem collect_eq (values : List Bytes) :
    collect (.some []) values = .some (joinedTight comma (values.map commonName)) := by
  induction values with
  | nil => rfl
  | cons value values ih =>
    have step : collect (.some []) (value :: values) = collect (.some (commonName value)) values :=
      rfl
    rw [step, List.map_cons]
    by_cases none : commonName value = []
    · rw [none, ih, joinedTight_nil]
    · rw [collect_some none, joinedTight_cons none]

/-- The first value starts the names. -/
theorem collect_none (value : Bytes) (values : List Bytes) :
    collect none (value :: values) = collect (some []) (value :: values) := rfl

/-! ## A cursor in a buffer -/

/-- What stands ahead of a cursor inside a buffer. -/
structure Ahead (bytes : Bytes) (pos : Nat) (text : Bytes) : Prop where
  /-- The cursor is inside. -/
  inside : pos + text.length = bytes.length
  /-- The text reaches up to the end. -/
  rest : bytes.drop pos = text

section Cursor

variable {bytes text : Bytes} {pos : Nat} (beyond : Nat → UInt8)

/-- A cursor that is inside, from what stands ahead of it. -/
theorem ahead_of_drop (inside : pos ≤ bytes.length) (rest : bytes.drop pos = text) :
    Ahead bytes pos text := by
  refine ⟨?_, rest⟩
  rw [← rest, List.length_drop]
  omega

/-- The byte at the cursor. -/
theorem Ahead.get {c : UInt8} (here : Ahead bytes pos (c :: text)) :
    Region.get ⟨bytes, beyond⟩ pos = c ∧ Ahead bytes (pos + 1) text := by
  have inside := here.inside
  rw [List.length_cons] at inside
  have split := drop_eq beyond (show pos < bytes.length by omega)
  rw [here.rest] at split
  obtain ⟨rfl, rest⟩ := List.cons.inj split
  exact ⟨rfl, ahead_of_drop (by omega) rest.symm⟩

/-- Bytes at the cursor. -/
theorem Ahead.slice {front : Bytes} (here : Ahead bytes pos (front ++ text)) :
    Region.slice ⟨bytes, beyond⟩ pos front.length = front ∧
      Ahead bytes (pos + front.length) text := by
  have inside := here.inside
  rw [List.length_append] at inside
  refine ⟨?_, ahead_of_drop (by omega) ?_⟩
  · rw [slice_eq beyond (by omega), here.rest, List.take_left]
  · rw [← List.drop_drop, here.rest, List.drop_left]

/-- The client reads the shortest field of a length below sixteen megabytes. -/
theorem lengthField_shortest {length : Nat} (small : length < 16777216) (rest : Bytes) :
    lengthField (shortestField length ++ rest) = (length, rest) := by
  rcases shortestField_cases (show length < 4294967296 by omega) with
    ⟨short, shape⟩ | ⟨first, bytes, shape, long, count, value, present, -, few⟩
  · obtain ⟨size, below⟩ := toNat_short short
    simp only [shape, List.cons_append, List.nil_append, lengthField, if_pos below, size]
  · have three := few.mpr small
    simp only [shape, List.cons_append, lengthField, if_neg long, count, List.length_append]
    rw [if_neg (by omega), List.take_left, List.drop_left, value]

/-- The length field at the cursor. -/
theorem Ahead.field {length : Nat} (small : length < 16777216)
    (here : Ahead bytes pos (shortestField length ++ text)) :
    ∃ next, berReadLength ⟨bytes, beyond⟩ bytes.length pos = (length, next) ∧
      Ahead bytes next text := by
  have inside := here.inside
  obtain ⟨-, within, read⟩ := berReadLength_eq bytes beyond pos (by omega)
  rw [here.rest, lengthField_shortest small] at read
  obtain ⟨length, rest⟩ := Prod.mk.inj read
  exact ⟨_, Prod.ext length.symm rfl, ahead_of_drop within rest.symm⟩

/-- The tag and the length field of an element at the cursor. -/
theorem Ahead.element {tag : UInt8} {contents : Bytes} (small : contents.length < 16777216)
    (here : Ahead bytes pos (writeElement tag contents ++ text)) :
    Region.get ⟨bytes, beyond⟩ pos = tag ∧
      ∃ next, berReadLength ⟨bytes, beyond⟩ bytes.length (pos + 1) = (contents.length, next) ∧
        Ahead bytes next (contents ++ text) := by
  rw [writeElement, List.cons_append, List.append_assoc] at here
  obtain ⟨tagged, behind⟩ := here.get beyond
  exact ⟨tagged, behind.field beyond small⟩

/-- The number of a message at the cursor. -/
theorem Ahead.int {id : Bytes} (numbered : IsMessageId id)
    (here : Ahead bytes pos (writeElement berInteger id ++ text)) :
    ∃ value next, berReadInt ⟨bytes, beyond⟩ bytes.length pos = (value, next) ∧
      Ahead bytes next text := by
  have inside := here.inside
  obtain ⟨within, read⟩ := @berReadInt_eq bytes beyond pos (by omega)
  have few := numbered.2.1
  have some : id.length ≠ 0 := fun none => numbered.1 (List.eq_nil_of_length_eq_zero none)
  have passed : afterInt (writeElement berInteger id ++ text) = text := by
    rw [writeElement, List.cons_append, List.append_assoc, afterInt, if_neg (by simp),
      lengthField_shortest (by omega)]
    simp only
    rw [if_neg (by rw [List.length_append]; omega), List.drop_left]
  rw [here.rest, passed] at read
  exact ⟨_, _, rfl, ahead_of_drop within read.symm⟩

end Cursor

/-! ## Reading an entry -/

/-- An element is longer than its contents. -/
theorem writeElement_length (tag : UInt8) (contents : Bytes) :
    contents.length < (writeElement tag contents).length := by
  rw [writeElement, List.length_cons, List.length_append]
  omega

section Reading

variable {bytes text : Bytes} {pos : Nat} (beyond : Nat → UInt8)

/-- The values of a `SET` are collected one after the other. -/
theorem readValues_written (small : bytes.length < 16777216) {vals : List Bytes} {rounds : Nat}
    (result : Option Bytes) (here : Ahead bytes pos (writeValues vals ++ text))
    (enough : (writeValues vals).length ≤ rounds) :
    readValues ⟨bytes, beyond⟩ bytes.length (pos + (writeValues vals).length) rounds pos result =
      collect result vals := by
  induction vals generalizing pos rounds result with
  | nil =>
    cases rounds with
    | zero => rfl
    | succ rounds => exact if_pos (.inl (Nat.le_refl _))
  | cons value vals ih =>
    have shape : writeValues (value :: vals) = writeElement berOctetStr value ++ writeValues vals :=
      List.flatMap_cons
    rw [shape] at here enough ⊢
    rw [List.append_assoc] at here
    have size := writeElement_length berOctetStr value
    have inside := here.inside
    rw [List.length_append] at enough ⊢
    simp only [List.length_append] at inside
    obtain ⟨rounds, rfl⟩ : ∃ less, rounds = less + 1 := ⟨rounds - 1, by omega⟩
    obtain ⟨tagged, next, read, behind⟩ := here.element beyond (by omega)
    obtain ⟨sliced, later⟩ := behind.slice beyond
    have ends : pos + ((writeElement berOctetStr value).length + (writeValues vals).length) =
        next + value.length + (writeValues vals).length := by
      have reach := later.inside
      rw [List.length_append] at reach
      omega
    rw [readValues, if_neg (not_or.mpr ⟨by omega, not_not_intro tagged⟩), read]
    simp only [sliced]
    rw [ends, ih _ later (by omega)]
    rfl

/-- The attributes of an entry are passed one after the other. -/
theorem readAttributes_written (small : bytes.length < 16777216) (wantAttr : Bytes)
    {attributes : List Attribute} {rounds : Nat} (result : Option Bytes)
    (here : Ahead bytes pos (writeAttributes attributes ++ text))
    (enough : (writeAttributes attributes).length ≤ rounds) :
    readAttributes ⟨bytes, beyond⟩ bytes.length wantAttr
        (pos + (writeAttributes attributes).length) rounds pos result =
      collect result ((attributes.filter fun attr =>
        attrMatches attr.type wantAttr).flatMap (·.vals)) := by
  induction attributes generalizing pos rounds result with
  | nil =>
    cases rounds with
    | zero => rfl
    | succ rounds => exact if_pos (.inl (Nat.le_refl _))
  | cons attr attributes ih =>
    have shape : writeAttributes (attr :: attributes) = attr.write ++ writeAttributes attributes :=
      List.flatMap_cons
    rw [shape] at here enough ⊢
    rw [List.append_assoc, Attribute.write] at here
    have size := writeElement_length berSequence (writeElement berOctetStr attr.type ++
      writeElement berSet (writeValues attr.vals))
    have inside := here.inside
    rw [List.length_append] at enough ⊢
    rw [Attribute.write] at enough ⊢
    simp only [List.length_append] at inside size
    have typeSize := writeElement_length berOctetStr attr.type
    have setSize := writeElement_length berSet (writeValues attr.vals)
    obtain ⟨rounds, rfl⟩ : ∃ less, rounds = less + 1 := ⟨rounds - 1, by omega⟩
    obtain ⟨tagged, start, read, contents⟩ :=
      here.element beyond (by rw [List.length_append]; omega)
    rw [List.length_append] at read
    -- where the attribute ends
    have reach := contents.inside
    simp only [List.length_append] at reach
    have ends : pos + ((writeElement berSequence (writeElement berOctetStr attr.type ++
        writeElement berSet (writeValues attr.vals))).length + (writeAttributes attributes).length) =
        start + ((writeElement berOctetStr attr.type).length +
          (writeElement berSet (writeValues attr.vals)).length) +
            (writeAttributes attributes).length := by
      omega
    have later : Ahead bytes (start + ((writeElement berOctetStr attr.type).length +
        (writeElement berSet (writeValues attr.vals)).length)) (writeAttributes attributes ++ text) := by
      have passed := (contents.slice beyond).2
      rwa [List.length_append] at passed
    rw [List.append_assoc] at contents
    obtain ⟨typed, typeStart, typeRead, typeContents⟩ := contents.element beyond (by omega)
    obtain ⟨type, behindType⟩ := typeContents.slice beyond
    rw [readAttributes, if_neg (not_or.mpr ⟨by omega, not_not_intro tagged⟩), read]
    simp only
    rw [ends, if_neg (by omega), if_neg (not_not_intro typed), typeRead]
    simp only [type]
    have setReach := behindType.inside
    simp only [List.length_append] at setReach
    obtain ⟨set, setStart, setRead, setContents⟩ := behindType.element beyond (by omega)
    by_cases wanted : attrMatches attr.type wantAttr = true
    · have present : ¬ (attrMatches attr.type wantAttr = false ∨
          start + ((writeElement berOctetStr attr.type).length +
            (writeElement berSet (writeValues attr.vals)).length) ≤
              typeStart + attr.type.length ∨
          Region.get ⟨bytes, beyond⟩ (typeStart + attr.type.length) ≠ berSet) :=
        not_or.mpr ⟨by simp [wanted], not_or.mpr ⟨by omega, not_not_intro set⟩⟩
      have valuesReach := setContents.inside
      simp only [List.length_append] at valuesReach
      have setEnd : min (setStart + (writeValues attr.vals).length)
          (start + ((writeElement berOctetStr attr.type).length +
            (writeElement berSet (writeValues attr.vals)).length)) =
          setStart + (writeValues attr.vals).length := by
        omega
      rw [if_neg present, setRead]
      simp only
      rw [setEnd, readValues_written beyond small result setContents (by omega),
        ih _ later (by omega), List.filter_cons, if_pos wanted, List.flatMap_cons, collect, collect,
        collect, List.foldl_append]
    · rw [if_pos (.inl (Bool.not_eq_true _ ▸ wanted)), ih _ later (by omega), List.filter_cons,
        if_neg wanted]

/-- The client gets to the entry behind the number of its message. -/
theorem Entry.ahead (entry : Entry) (small : entry.message.length < 16777216) :
    Region.get ⟨entry.message, beyond⟩ 0 = berSequence ∧
      ∃ length start value op,
        berReadLength ⟨entry.message, beyond⟩ entry.message.length 1 = (length, start) ∧
        berReadInt ⟨entry.message, beyond⟩ entry.message.length start = (value, op) ∧
        Ahead entry.message op (writeElement ldapSearchEntry entry.body ++ []) := by
  have start : Ahead entry.message 0 (writeElement berSequence (writeElement berInteger entry.id ++
      writeElement ldapSearchEntry entry.body) ++ []) := by
    rw [List.append_nil]
    exact ⟨Nat.zero_add _, rfl⟩
  have size := writeElement_length berSequence (writeElement berInteger entry.id ++
    writeElement ldapSearchEntry entry.body)
  obtain ⟨sequence, message, messageRead, inMessage⟩ :=
    start.element beyond (Nat.lt_trans size small)
  rw [List.append_assoc] at inMessage
  obtain ⟨value, op, idRead, inOp⟩ := inMessage.int beyond entry.numbered
  exact ⟨sequence, _, message, value, op, messageRead, idRead, inOp⟩

/-- The client takes the message for one with an entry. -/
theorem hasTag_message (entry : Entry) (small : entry.message.length < 16777216) :
    hasTag ⟨entry.message, beyond⟩ entry.message.length ldapSearchEntry = true := by
  obtain ⟨sequence, length, start, value, op, messageRead, idRead, inOp⟩ := entry.ahead beyond small
  have reach := inOp.inside
  have size := writeElement_length ldapSearchEntry entry.body
  rw [List.append_nil] at reach
  have tagged := (inOp.get beyond).1
  rw [hasTag, if_pos sequence, messageRead]
  simp only [idRead, tagged]
  simp only [Bool.and_eq_true, decide_eq_true_eq, beq_self_eq_true, and_true]
  omega

/-- The client collects the values of an entry. -/
theorem parseSearchEntryAttr_message (entry : Entry) (wantAttr : Bytes)
    (small : entry.message.length < 16777216) :
    parseSearchEntryAttr ⟨entry.message, beyond⟩ entry.message.length wantAttr =
      collect none (entry.values wantAttr) := by
  obtain ⟨sequence, length, start, value, op, messageRead, idRead, inOp⟩ := entry.ahead beyond small
  generalize entry.message = bytes at *
  have size := writeElement_length ldapSearchEntry entry.body
  have nameSize := writeElement_length berOctetStr entry.name
  have attrsSize := writeElement_length berSequence (writeAttributes entry.attributes)
  have opReach := inOp.inside
  simp only [List.length_append, List.length_nil] at opReach
  obtain ⟨searchEntry, body, bodyRead, inBody⟩ := inOp.element beyond (by omega)
  rw [Entry.body, List.append_assoc] at inBody
  have bodyReach := inBody.inside
  simp only [Entry.body, List.length_append, List.length_nil] at bodyReach bodyRead
  obtain ⟨named, name, nameRead, inName⟩ := inBody.element beyond (by omega)
  have inAttributes := (inName.slice beyond).2
  have nameReach := inAttributes.inside
  simp only [List.length_append, List.length_nil] at nameReach
  obtain ⟨listed, attrs, attrsRead, inAttrs⟩ := inAttributes.element beyond (by omega)
  have attrsReach := inAttrs.inside
  simp only [List.length_append, List.length_nil] at attrsReach
  have attrsEnd : min (attrs + (writeAttributes entry.attributes).length) bytes.length =
      attrs + (writeAttributes entry.attributes).length := by
    omega
  rw [parseSearchEntryAttr, if_neg (not_or.mpr ⟨by omega, not_not_intro sequence⟩), messageRead]
  simp only [idRead]
  rw [if_neg (not_or.mpr ⟨by omega, not_not_intro searchEntry⟩), bodyRead]
  simp only
  rw [if_neg (not_or.mpr ⟨by omega, not_or.mpr ⟨by omega, not_not_intro named⟩⟩), nameRead]
  simp only
  rw [if_neg (not_or.mpr ⟨by omega, not_not_intro listed⟩), attrsRead]
  simp only
  rw [attrsEnd, readAttributes_written beyond small wantAttr none inAttrs (by omega)]
  rfl

end Reading

/-! ## Receiving an entry -/

/-- A read of what is there. -/
theorem whole_read (front rest : Bytes) :
    whole.read (front ++ rest) front.length = (some front, rest) := by
  simp only [whole, List.length_append]
  rw [if_pos (by omega), List.take_left, List.drop_left]

/-- The body of a message that is there. -/
theorem recvBody_whole (size : Nat) (header contents rest : Bytes) :
    (recvBody whole size header contents.length (contents ++ rest)).1 =
      if (header ++ contents).length ≤ size then some (header ++ contents) else none := by
  rw [recvBody, List.length_append]
  by_cases fits : header.length + contents.length ≤ size
  · rw [if_neg (by omega), if_pos fits, whole_read]
    split_ifs with none
    · rw [List.eq_nil_of_length_eq_zero none, List.append_nil]
    · rfl
  · rw [if_pos (by omega), if_neg fits]

/-- A message whose length field has up to three length bytes. -/
theorem ldapRecvMessage_long (size : Nat) (tag : UInt8) {second : UInt8} {bytes : Bytes}
    (contents rest : Bytes) (above : ¬ second < 0x80)
    (count : (second &&& 0x7F).toNat = bytes.length) (present : 0 < bytes.length)
    (few : bytes.length ≤ 3) (value : number bytes = contents.length) :
    (ldapRecvMessage whole size (tag :: second :: (bytes ++ (contents ++ rest)))).1 =
      if (tag :: second :: (bytes ++ contents)).length ≤ size then
        some (tag :: second :: (bytes ++ contents))
      else none := by
  have header : whole.read (tag :: second :: (bytes ++ (contents ++ rest))) 2 =
      (some [tag, second], bytes ++ (contents ++ rest)) := whole_read [tag, second] _
  have field := whole_read bytes (contents ++ rest)
  have body := recvBody_whole size ([tag, second] ++ bytes) contents rest
  rw [ldapRecvMessage, header]
  simp only [List.getD_cons_succ, List.getD_cons_zero, if_neg above, count]
  rw [if_neg (by omega), field]
  simp only [bigEndian, ← number.eq_1, value]
  rw [body]
  simp only [List.cons_append, List.nil_append]

/-- A message is received whole when the buffer takes it, and not at all otherwise. -/
theorem ldapRecvMessage_written {size : Nat} (small : size < 16777216) (tag : UInt8)
    (contents rest : Bytes) :
    (ldapRecvMessage whole size (writeElement tag contents ++ rest)).1 =
      if (writeElement tag contents).length ≤ size then some (writeElement tag contents)
      else none := by
  have fits := writeElement_length tag contents
  by_cases huge : 16777216 ≤ contents.length
  · -- four length bytes are refused
    have shape : ∃ bytes, shortestField contents.length = 0x84 :: bytes := by
      unfold shortestField
      rw [if_neg (by omega), if_neg (by omega), if_neg (by omega), if_neg (by omega)]
      exact ⟨_, rfl⟩
    obtain ⟨bytes, shape⟩ := shape
    have header : whole.read (tag :: 0x84 :: (bytes ++ contents ++ rest)) 2 =
        (some [tag, 0x84], bytes ++ contents ++ rest) := whole_read [tag, 0x84] _
    rw [if_neg (by omega), writeElement, shape, List.cons_append, List.cons_append,
      List.cons_append, ldapRecvMessage, header]
    simp only [List.getD_cons_succ, List.getD_cons_zero]
    rw [if_neg (by decide), if_pos (by decide)]
  rcases shortestField_cases (show contents.length < 4294967296 by omega) with
    ⟨short, shape⟩ | ⟨second, bytes, shape, long, count, value, present, -, few⟩
  · obtain ⟨number, below⟩ := toNat_short short
    have header : whole.read (tag :: UInt8.ofNat contents.length :: (contents ++ rest)) 2 =
        (some [tag, UInt8.ofNat contents.length], contents ++ rest) :=
      whole_read [tag, UInt8.ofNat contents.length] _
    have body := recvBody_whole size [tag, UInt8.ofNat contents.length] contents rest
    rw [writeElement, shape, List.cons_append, List.singleton_append, List.cons_append,
      ldapRecvMessage, header]
    simp only [List.getD_cons_succ, List.getD_cons_zero, if_pos below, number]
    exact body
  · rw [writeElement, shape, List.cons_append, List.cons_append, List.cons_append, List.append_assoc,
      ldapRecvMessage_long size tag contents rest long count present (few.mpr (by omega)) value]

end Cookbook.Ldap
