import Cookbook.Auth.Jwt
import Cookbook.Policy.Serialize

/-!
# Tokens of resolved policies

`jwtCreateV2` copies the text of a resolved policy into the payload of a token, and `jwtVerify`
finds the grants, the exclusions and the expiry in it again. The buffer that the payload is written
to is sized by the policy and not by the subject, and the buffer it is read into has a fixed size:
the terms of a policy survive exactly when both are large enough, no name in the policy is taken for
the expiry, and the policy text itself is complete.
-/
namespace Cookbook.Auth

open Library.Text Policy

/-- A resolved policy as `serialize_grants_json` gets it: C strings, with plain names. -/
structure ResolvedPolicy where
  /-- The granted prefixes with their operation letters. -/
  grants : List (Bytes × Bytes)
  /-- The excluded prefixes. -/
  excludes : List Bytes
  /-- The granted prefixes are plain. -/
  grantsPlain : ∀ entry ∈ grants, Plain entry.1
  /-- The excluded prefixes are plain. -/
  excludesPlain : ∀ key ∈ excludes, Plain key
  /-- No text holds a terminator. -/
  terminated : (∀ entry ∈ grants, 0 ∉ entry.1 ∧ 0 ∉ entry.2) ∧ ∀ key ∈ excludes, 0 ∉ key

namespace ResolvedPolicy

/-- The entries of the grants object. -/
def grantsBody (policy : ResolvedPolicy) : Bytes :=
  [comma].intercalate (policy.grants.map grantItem)

/-- The entries of the exclude object. -/
def excludesBody (policy : ResolvedPolicy) : Bytes :=
  [comma].intercalate (policy.excludes.map excludeItem)

/-- The members of the policy text. -/
def members (policy : ResolvedPolicy) : Bytes :=
  grantsMarker ++ (policy.grantsBody ++ closeBrace :: comma ::
    (excludeMarker ++ (policy.excludesBody ++ [closeBrace])))

end ResolvedPolicy

/-! ## The payload -/

/-- The identity members of a payload. -/
def front (sub groups jti : Bytes) : Bytes :=
  openBrace :: (jsonWriteString (ascii "sub") sub true ++
    ((if groups = [] then [] else jsonWriteString (ascii "groups") groups false) ++
      jsonWriteString (ascii "jti") jti false))

/-- The payload up to the members of the policy. -/
def head (sub groups jti : Bytes) : Bytes :=
  front sub groups jti ++ comma :: (ascii "\"v\":2" ++ [comma])

/-- The time of issue and the name of the expiry, in front of a text. -/
def timesBefore (now : Int) (text : Bytes) : Bytes :=
  comma :: (ascii "\"iat\":" ++ (decimal now ++ comma :: (ascii "\"exp\":" ++ text)))

/-- The times at the end of a payload. -/
def times (now exp : Int) : Bytes := timesBefore now (decimal exp ++ [closeBrace])

/-- The text that a payload should have. -/
def payloadText (sub groups jti members : Bytes) (now exp : Int) : Bytes :=
  head sub groups jti ++ (members ++ times now exp)

section Writing

variable {sub groups jti : Bytes} {now exp : Int} {cap : Nat}

/-- The identity members are written, or a write falls outside the buffer. -/
theorem printIdentity_ofText (sub groups jti : Bytes) (positive : 0 < cap) :
    printIdentity sub groups jti (Cursor.empty cap) =
        .done (Cursor.ofText cap (front sub groups jti)) ∨
      printIdentity sub groups jti (Cursor.empty cap) = .overrun ∧
        cap < (front sub groups jti).length := by
  rw [Cursor.empty_eq_ofText]
  by_cases none : groups = []
  · simp only [printIdentity, printGroups, none, ↓reduceIte, Cursor.ofText_bind positive, front,
      Outcome.bind_done]
    simp only [Cursor.ofText_printf positive]
    split_ifs
    all_goals simp
    all_goals grind
  · simp only [printIdentity, printGroups, none, ↓reduceIte, Cursor.ofText_bind positive, front]
    simp only [Cursor.ofText_printf positive]
    split_ifs
    all_goals simp
    all_goals grind

/-- The times have at most 53 characters. -/
theorem times_length (nowLow : 0 ≤ now) (nowHigh : now < 9223372036854775808) (expLow : 0 ≤ exp)
    (expHigh : exp < 9223372036854775808) : (times now exp).length ≤ 53 := by
  have nowShort := decimal_length nowLow nowHigh
  have expShort := decimal_length expLow expHigh
  simp [times, timesBefore, ascii]
  omega

/-- Times for which there is room are written whole. -/
theorem printTimes_whole {text : Bytes} (room : text.length + (times now exp).length < cap) :
    printTimes now exp (Cursor.ofText cap text) =
      .done (Cursor.ofText cap (text ++ times now exp)) := by
  have positive : 0 < cap := by omega
  have parts : times now exp = jsonWriteInt (ascii "iat") now false ++
      (jsonWriteInt (ascii "exp") exp false ++ [closeBrace]) := by
    simp [times, timesBefore, jsonWriteInt, memberName, ascii]
  rw [parts] at room ⊢
  simp only [List.length_append] at room
  rw [printTimes, Cursor.ofText_bind positive, if_neg (by omega), Cursor.ofText_bind positive,
    if_neg (by simp only [List.length_append]; omega), Cursor.ofText_printf positive,
    if_neg (by simp only [List.length_append]; omega)]
  simp

/-- Behind a cut text the times are not read. -/
theorem printTimes_cut (now exp : Int) {cursor : Cursor} (cut : cursor.text.length < cursor.pos)
    (room : cursor.pos + (times now exp).length < cursor.cap) :
    ∃ next, printTimes now exp cursor = .done next ∧ next.text = cursor.text := by
  have parts : (times now exp).length = (jsonWriteInt (ascii "iat") now false).length +
      (jsonWriteInt (ascii "exp") exp false).length + 1 := by
    simp [times, timesBefore, jsonWriteInt, memberName, ascii]
    omega
  obtain ⟨first, firstDone, firstText, firstCap, firstPos⟩ :=
    Cursor.printf_sealed _ cut (by omega) (jsonWriteInt (ascii "iat") now false)
  obtain ⟨second, secondDone, secondText, secondCap, secondPos⟩ :=
    Cursor.printf_sealed first (by rw [firstText]; omega) (by omega)
      (jsonWriteInt (ascii "exp") exp false)
  obtain ⟨last, lastDone, lastText, _⟩ :=
    Cursor.printf_sealed second (by rw [secondText, firstText]; omega) (by omega) [closeBrace]
  refine ⟨last, ?_, by rw [lastText, secondText, firstText]⟩
  rw [printTimes, firstDone, Outcome.bind_done, secondDone, Outcome.bind_done, lastDone]

/-- The members between the braces of a policy text. -/
theorem inner_members (members : Bytes) (last : UInt8) :
    ((openBrace :: (members ++ [last])).drop 1).take
      ((openBrace :: (members ++ [last])).length - 2) = members := by
  simp

/-- Members spliced into a whole text are part of it, with room for the times. -/
theorem spliceMembers_whole {text : Bytes} (members : Bytes) (fits : text.length < cap) :
    ∃ grown, spliceMembers (Cursor.ofText cap text) members =
      Cursor.ofText grown (text ++ members) ∧ (text ++ members).length + 64 ≤ grown := by
  have whole : text.take (cap - 1) = text := List.take_of_length_le (by omega)
  by_cases small : cap < text.length + members.length + 64
  · refine ⟨text.length + members.length + 256, ?_, by simp⟩
    simp only [spliceMembers, Cursor.ofText, whole, small, ↓reduceIte, List.length_append,
      Cursor.mk.injEq, true_and, and_true]
    rw [List.take_of_length_le (by rw [List.length_append]; omega)]
  · refine ⟨cap, ?_, by rw [List.length_append]; omega⟩
    simp only [spliceMembers, Cursor.ofText, whole, small, ↓reduceIte, List.length_append,
      Cursor.mk.injEq, true_and, and_true]
    rw [List.take_of_length_le (by rw [List.length_append]; omega)]

/-- Members spliced behind a cut text are not read, and the times have room. -/
theorem spliceMembers_cut {text : Bytes} (members : Bytes) (positive : 0 < cap)
    (full : cap ≤ text.length) :
    (spliceMembers (Cursor.ofText cap text) members).text = text.take (cap - 1) ∧
      (spliceMembers (Cursor.ofText cap text) members).text.length <
        (spliceMembers (Cursor.ofText cap text) members).pos ∧
      (spliceMembers (Cursor.ofText cap text) members).pos + 64 ≤
        (spliceMembers (Cursor.ofText cap text) members).cap := by
  have cut : (text.take (cap - 1)).length ≠ text.length := by
    rw [List.length_take]
    omega
  have small : cap < text.length + members.length + 64 := by omega
  have sealed : spliceMembers (Cursor.ofText cap text) members =
      ⟨text.length + members.length + 256, text.take (cap - 1), text.length + members.length⟩ := by
    simp only [spliceMembers, Cursor.ofText, cut, small, ↓reduceIte]
  rw [sealed]
  refine ⟨rfl, ?_, ?_⟩
  · simp only [List.length_take]
    omega
  · simp only
    omega

/-- The head is what is printed in front of the members. -/
theorem head_eq (sub groups jti : Bytes) : front sub groups jti ++ jsonWriteInt (ascii "v") 2 false ++ [comma] =
    head sub groups jti := by
  simp [head, jsonWriteInt, memberName, ascii, decimal, decimalNat, prependDigits, digitChar]

/-- The writes up to the members, with the policy text spliced in. -/
theorem jwtPayloadV2_eq {members : Bytes} {last : UInt8} :
    jwtPayloadV2 sub groups jti (openBrace :: (members ++ [last])) now exp =
      (printIdentity sub groups jti (Cursor.empty (512 + (members.length + 2)))).bind fun cursor =>
      (cursor.printf (jsonWriteInt (ascii "v") 2 false)).bind fun cursor =>
      (cursor.printf [comma]).bind fun cursor =>
      (printTimes now exp (spliceMembers cursor members)).bind fun cursor =>
        .done cursor.text := by
  have size : 512 + (openBrace :: (members ++ [last])).length = 512 + (members.length + 2) := by
    simp
  have enough : 2 ≤ (openBrace :: (members ++ [last])).length ∧
      (openBrace :: (members ++ [last])).head? = some openBrace := by simp
  simp only [jwtPayloadV2, size, printResolved, if_pos enough, inner_members]
  congr 1
  funext cursor
  congr 1
  funext cursor
  cases cursor.printf [comma] <;> rfl

/-- A payload whose head fits is written whole. -/
theorem jwtPayloadV2_whole {members : Bytes} {last : UInt8} (short : (times now exp).length ≤ 53)
    (fits : (head sub groups jti).length < 512 + (members.length + 2)) :
    jwtPayloadV2 sub groups jti (openBrace :: (members ++ [last])) now exp =
      .done (payloadText sub groups jti members now exp) := by
  have positive : 0 < 512 + (members.length + 2) := by omega
  have length := congrArg List.length (head_eq sub groups jti)
  simp only [List.length_append, List.length_singleton] at length
  rcases printIdentity_ofText sub groups jti positive with
    done | ⟨_, outside⟩
  · obtain ⟨grown, spliced, room⟩ := spliceMembers_whole members fits
    rw [jwtPayloadV2_eq, done, Outcome.bind_done, Cursor.ofText_bind positive,
      if_neg (by omega), Cursor.ofText_bind positive,
      if_neg (by rw [List.length_append]; omega), head_eq, spliced, printTimes_whole (by omega),
      Outcome.bind_done, Cursor.ofText_text (by rw [List.length_append]; omega), payloadText,
      List.append_assoc]
  · omega

/-- A payload whose head does not fit ends inside the head, or a write falls outside. -/
theorem jwtPayloadV2_cut {members : Bytes} (last : UInt8) (short : (times now exp).length ≤ 53)
    (full : 512 + (members.length + 2) ≤ (head sub groups jti).length) :
    jwtPayloadV2 sub groups jti (openBrace :: (members ++ [last])) now exp = .overrun ∨
      jwtPayloadV2 sub groups jti (openBrace :: (members ++ [last])) now exp =
        .done ((head sub groups jti).take (512 + members.length + 1)) := by
  have positive : 0 < 512 + (members.length + 2) := by omega
  rw [jwtPayloadV2_eq]
  rcases printIdentity_ofText sub groups jti positive with
    done | ⟨overrun, _⟩
  · rw [done, Outcome.bind_done, Cursor.ofText_bind positive, Cursor.ofText_bind positive, head_eq]
    split_ifs
    · exact Or.inl rfl
    · exact Or.inl rfl
    · right
      obtain ⟨text, cut, room⟩ := spliceMembers_cut members positive full
      obtain ⟨next, timesDone, timesText⟩ := printTimes_cut now exp cut (by omega)
      rw [timesDone, Outcome.bind_done, timesText, text]
      rfl
  · left
    rw [overrun]
    rfl

end Writing

end Cookbook.Auth
