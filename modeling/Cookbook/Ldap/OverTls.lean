import Cookbook.Ldap.Client

/-!
# The LDAP client over TLS

`ldap_recv_message` reads exact lengths, and `cookbook_tls_recv` never joins two records. A bind over
TLS ends like one over a socket exactly when no read of a message that matters is divided between
records: of the successful bind response, and of the entry with the groups.
-/
namespace Cookbook.Ldap

open Library.Text Library.Pieces Tls

/-! ## Messages -/

/-- The number of bytes of the length behind the second byte. -/
def fieldLength (message : Bytes) : Nat :=
  if message.getD 1 0 < 0x80 then 0 else (message.getD 1 0 &&& 0x7F).toNat

/-- The number of bytes behind the header. -/
def bodyLength (message : Bytes) : Nat :=
  if message.getD 1 0 < 0x80 then (message.getD 1 0).toNat
  else bigEndian ((message.drop 2).take (fieldLength message))

/-- A message whose length is definite, right, and at most a size. -/
structure Framed (size : Nat) (message : Bytes) : Prop where
  /-- The length is definite and has at most three bytes. -/
  definite : message.getD 1 0 ≠ 0x80 ∧ fieldLength message ≤ 3
  /-- The length is right. -/
  counted : message.length = 2 + fieldLength message + bodyLength message
  /-- The message is small enough. -/
  fits : message.length ≤ size

/-- The three reads of a message that starts at a position are not divided. -/
structure Undivided (list : List Bytes) (start : Nat) (message : Bytes) : Prop where
  /-- The first two bytes. -/
  header : Unbroken list start 2
  /-- The rest of the length. -/
  field : 0 < fieldLength message → Unbroken list (start + 2) (fieldLength message)
  /-- The body. -/
  body : 0 < bodyLength message →
    Unbroken list (start + 2 + fieldLength message) (bodyLength message)

section Receive

variable {σ : Type} {source : Source σ UInt8} {holds : σ → List Bytes → Prop}

/-- What is left behind a message that was read. -/
structure Behind (holds : σ → List Bytes → Prop) (list : List Bytes) (message : Bytes) (state : σ)
    (rest : List Bytes) : Prop where
  /-- The source holds it. -/
  held : holds state rest
  /-- The message stands in front of it. -/
  joined : list.flatten = message ++ rest.flatten
  /-- It is divided as before. -/
  divided : ∀ start count, Unbroken rest start count ↔ Unbroken list (message.length + start) count

/-- A body that is read. -/
theorem recvBody_some (reads : Reads source holds) {list before : List Bytes} {size : Nat}
    {header message : Bytes} {totalLen : Nat} {state : σ} (behind : Behind holds before header state list)
    (received : (recvBody source size header totalLen state).1 = some message) :
    ∃ body rest, message = header ++ body ∧ body.length = totalLen ∧ message.length ≤ size ∧
      Behind holds before message (recvBody source size header totalLen state).2 rest ∧
      (0 < totalLen → Unbroken before header.length totalLen) := by
  unfold recvBody at received ⊢
  by_cases large : size < totalLen + header.length
  · rw [if_pos large] at received
    cases received
  · rw [if_neg large] at received ⊢
    by_cases empty : totalLen = 0
    · rw [if_pos empty] at received ⊢
      cases received
      exact ⟨[], list, (List.append_nil _).symm, empty.symm, by omega, behind, by omega⟩
    · rw [if_neg empty] at received ⊢
      cases read : source.read state totalLen with
      | mk handed after =>
        rw [read] at received
        cases handed with
        | none => cases received
        | some body =>
          have handed : (source.read state totalLen).1 = some body := by rw [read]
          obtain ⟨rest, held, length, inside, joined, divided⟩ :=
            reads.handed (by omega) behind.held handed
          rw [read] at held
          cases received
          have total : (header ++ body).length = header.length + totalLen := by
            rw [List.length_append, length]
          refine ⟨body, rest, rfl, length, by omega, ⟨held, ?_, ?_⟩, ?_⟩
          · rw [behind.joined, joined, List.append_assoc]
          · intro start count
            rw [divided, behind.divided, total, Nat.add_assoc]
          · intro _
            have there := (behind.divided 0 totalLen).mp inside
            rwa [Nat.add_zero] at there

/-- What happens behind the first two bytes. -/
theorem recvMessage_header {size : Nat} {state after : σ} {tag second : UInt8}
    (first : source.read state 2 = (some [tag, second], after)) :
    ldapRecvMessage source size state =
      if second < 0x80 then recvBody source size [tag, second] second.toNat after
      else if 3 < (second &&& 0x7F).toNat ∨ (second &&& 0x7F).toNat = 0 then (none, after)
      else
        match source.read after (second &&& 0x7F).toNat with
        | (none, state) => (none, state)
        | (some field, state) =>
          recvBody source size ([tag, second] ++ field) (bigEndian field) state := by
  unfold ldapRecvMessage
  rw [first]
  rfl

/-- A message that is read is well framed and undivided, and stands in front of the rest. -/
theorem recvMessage_some (reads : Reads source holds) {list : List Bytes} {size : Nat} {state : σ}
    {message : Bytes} (related : holds state list)
    (received : (ldapRecvMessage source size state).1 = some message) :
    Framed size message ∧ Undivided list 0 message ∧
      ∃ rest, Behind holds list message (ldapRecvMessage source size state).2 rest := by
  cases first : source.read state 2 with
  | mk handed after =>
    cases handed with
    | none =>
      unfold ldapRecvMessage at received
      rw [first] at received
      cases received
    | some header =>
      have two : (source.read state 2).1 = some header := by rw [first]
      obtain ⟨middle, held, length, front, joined, divided⟩ :=
        reads.handed (by omega) related two
      rw [first] at held
      have behind : Behind holds list header after middle :=
        ⟨held, joined, by rw [length]; exact divided⟩
      match header, length with
      | [tag, second], _ =>
        rw [recvMessage_header first] at received ⊢
        by_cases short : second < 0x80
        · rw [if_pos short] at received ⊢
          obtain ⟨body, rest, shape, total, fits, left, inside⟩ :=
            recvBody_some reads behind received
          subst shape
          have noField : fieldLength ([tag, second] ++ body) = 0 := if_pos short
          have whole : bodyLength ([tag, second] ++ body) = second.toNat := if_pos short
          refine ⟨⟨⟨?_, ?_⟩, ?_, fits⟩, ⟨front, ?_, ?_⟩, rest, left⟩
          · intro same
            have here : second = 0x80 := same
            rw [here] at short
            exact absurd short (by decide)
          · omega
          · rw [noField, whole, List.length_append, total]
            rfl
          · rw [noField]
            omega
          · rw [noField, whole]
            exact inside
        · rw [if_neg short] at received ⊢
          by_cases bad : 3 < (second &&& 0x7F).toNat ∨ (second &&& 0x7F).toNat = 0
          · rw [if_pos bad] at received
            cases received
          · rw [if_neg bad] at received ⊢
            cases next : source.read after (second &&& 0x7F).toNat with
            | mk handed later =>
              rw [next] at received
              cases handed with
              | none => cases received
              | some field =>
                have some_field : (source.read after (second &&& 0x7F).toNat).1 = some field := by
                  rw [next]
                obtain ⟨last, held, extra, inField, joined, divided⟩ :=
                  reads.handed (by omega) behind.held some_field
                rw [next] at held
                have total : ([tag, second] ++ field).length = 2 + (second &&& 0x7F).toNat := by
                  rw [List.length_append, extra]
                  rfl
                have beyond : Behind holds list ([tag, second] ++ field) later last := by
                  refine ⟨held, ?_, ?_⟩
                  · rw [behind.joined, joined, List.append_assoc]
                  · intro start count
                    rw [divided, behind.divided, total, Nat.add_assoc]
                    rfl
                obtain ⟨body, rest, shape, count, fits, left, inside⟩ :=
                  recvBody_some reads beyond received
                subst shape
                have fieldIs : fieldLength ([tag, second] ++ field ++ body) =
                    (second &&& 0x7F).toNat := if_neg short
                have bodyIs : bodyLength ([tag, second] ++ field ++ body) = bigEndian field := by
                  have cut : bodyLength ([tag, second] ++ field ++ body) =
                      bigEndian ((field ++ body).take
                        (fieldLength ([tag, second] ++ field ++ body))) := if_neg short
                  rw [cut, fieldIs, ← extra, List.take_left]
                refine ⟨⟨⟨?_, ?_⟩, ?_, fits⟩, ⟨front, ?_, ?_⟩, rest, left⟩
                · intro same
                  have here : second = 0x80 := same
                  exact bad (.inr (by rw [here]; rfl))
                · omega
                · rw [fieldIs, bodyIs, List.length_append, total, count]
                · intro _
                  rw [fieldIs]
                  exact (behind.divided 0 _).mp inField
                · intro some
                  rw [fieldIs, bodyIs, Nat.zero_add, ← total]
                  rw [bodyIs] at some
                  exact inside some

/-- An undivided body in front of what is left is read. -/
theorem recvBody_framed (reads : Reads source holds) {list before : List Bytes} {size : Nat}
    {header body after : Bytes} {state : σ} (behind : Behind holds before header state list)
    (joined : before.flatten = header ++ body ++ after) (fits : (header ++ body).length ≤ size)
    (inside : 0 < body.length → Unbroken before header.length body.length) :
    (recvBody source size header body.length state).1 = some (header ++ body) := by
  rw [List.length_append] at fits
  unfold recvBody
  rw [if_neg (by omega)]
  by_cases empty : body.length = 0
  · rw [if_pos empty, List.eq_nil_of_length_eq_zero empty, List.append_nil]
  · rw [if_neg empty]
    have here : Unbroken list 0 body.length := by
      rw [behind.divided, Nat.add_zero]
      exact inside (by omega)
    have rest : list.flatten = body ++ after := by
      have both := behind.joined.symm.trans joined
      rw [List.append_assoc] at both
      exact List.append_cancel_left both
    have handed := reads.inFront (by omega) behind.held rest here
    cases read : source.read state body.length with
    | mk found later =>
      rw [read] at handed
      cases handed
      rfl

/-- A well framed message in front of the data is read when it is undivided. -/
theorem recvMessage_framed (reads : Reads source holds) {list : List Bytes} {size : Nat} {state : σ}
    {message after : Bytes} (related : holds state list) (joined : list.flatten = message ++ after)
    (framed : Framed size message) (undivided : Undivided list 0 message) :
    (ldapRecvMessage source size state).1 = some message := by
  have counted := framed.counted
  have fits := framed.fits
  match message, counted with
  | tag :: second :: tail, counted =>
    have tailLength : tail.length = fieldLength (tag :: second :: tail) +
        bodyLength (tag :: second :: tail) := by
      rw [List.length_cons, List.length_cons] at counted
      omega
    have flat : list.flatten = [tag, second] ++ (tail ++ after) := joined
    have front : (source.read state [tag, second].length).1 = some [tag, second] :=
      reads.inFront Nat.zero_lt_two related flat undivided.header
    obtain ⟨middle, held, -, -, split, divided⟩ := reads.handed Nat.zero_lt_two related front
    have behind : Behind holds list [tag, second] (source.read state 2).2 middle :=
      ⟨held, split, divided⟩
    cases first : source.read state 2 with
    | mk handed later =>
      have same : handed = some [tag, second] := by
        have both : (source.read state 2).1 = some [tag, second] := front
        rwa [first] at both
      rw [first] at behind
      rw [same] at first
      rw [recvMessage_header first]
      by_cases short : second < 0x80
      · have noField : fieldLength (tag :: second :: tail) = 0 := if_pos short
        have whole : bodyLength (tag :: second :: tail) = second.toNat := if_pos short
        have length : tail.length = second.toNat := by omega
        rw [if_pos short, ← length]
        refine recvBody_framed reads behind joined fits ?_
        intro some
        have inside := undivided.body (by omega)
        rw [noField, whole, ← length] at inside
        exact inside
      · have fieldIs : fieldLength (tag :: second :: tail) = (second &&& 0x7F).toNat :=
          if_neg short
        have bodyIs : bodyLength (tag :: second :: tail) =
            bigEndian (tail.take (fieldLength (tag :: second :: tail))) := if_neg short
        have definite : (second &&& 0x7F).toNat ≠ 0 := by
          intro zero
          have only : ∀ byte : UInt8, ¬ byte < 0x80 → (byte &&& 0x7F).toNat = 0 → byte = 0x80 :=
            byte_forall (by decide +kernel)
          exact framed.definite.1 (only second short zero)
        have three := framed.definite.2
        have bad : ¬(3 < (second &&& 0x7F).toNat ∨ (second &&& 0x7F).toNat = 0) := by omega
        rw [if_neg short, if_neg bad]
        have cut : (tail.take (second &&& 0x7F).toNat).length = (second &&& 0x7F).toNat :=
          List.length_take_of_le (by omega)
        have flatField : middle.flatten = tail.take (second &&& 0x7F).toNat ++
            (tail.drop (second &&& 0x7F).toNat ++ after) := by
          have both : [tag, second] ++ middle.flatten = [tag, second] ++ (tail ++ after) :=
            split.symm.trans flat
          rw [List.append_cancel_left both, ← List.append_assoc, List.take_append_drop]
        have inField : Unbroken middle 0 (tail.take (second &&& 0x7F).toNat).length := by
          rw [cut, behind.divided, ← fieldIs]
          exact undivided.field (by omega)
        have field := reads.inFront (by omega) behind.held flatField inField
        obtain ⟨last, heldLast, -, -, flatLast, dividedLast⟩ :=
          reads.handed (by omega) behind.held field
        rw [cut] at field heldLast dividedLast
        have total : ([tag, second] ++ tail.take (second &&& 0x7F).toNat).length =
            2 + (second &&& 0x7F).toNat := by
          rw [List.length_append, cut]
          rfl
        have beyond : Behind holds list ([tag, second] ++ tail.take (second &&& 0x7F).toNat)
            (source.read later (second &&& 0x7F).toNat).2 last := by
          refine ⟨heldLast, ?_, ?_⟩
          · rw [behind.joined, flatLast, List.append_assoc]
          · intro start count
            rw [dividedLast, behind.divided, total, Nat.add_assoc]
            rfl
        cases next : source.read later (second &&& 0x7F).toNat with
        | mk handed end_ =>
          rw [next] at field beyond
          dsimp only at field
          rw [field]
          dsimp only
          have length : bigEndian (tail.take (second &&& 0x7F).toNat) =
              (tail.drop (second &&& 0x7F).toNat).length := by
            rw [fieldIs] at bodyIs
            rw [List.length_drop, ← bodyIs]
            omega
          have shape : tag :: second :: tail = [tag, second] ++
              tail.take (second &&& 0x7F).toNat ++ tail.drop (second &&& 0x7F).toNat := by
            rw [List.append_assoc, List.take_append_drop]
            rfl
          have wholeFlat : list.flatten = [tag, second] ++ tail.take (second &&& 0x7F).toNat ++
              tail.drop (second &&& 0x7F).toNat ++ after := by
            rw [joined, ← shape]
          rw [length, shape]
          refine recvBody_framed reads beyond wholeFlat ?_ ?_
          · rw [← shape]
            exact fits
          · intro some
            have inside := undivided.body (by rw [bodyIs, fieldIs, length]; exact some)
            rwa [fieldIs, bodyIs, fieldIs, length, Nat.zero_add, ← total] at inside

/-- A message is read exactly when it stands in front, well framed and undivided. -/
theorem recvMessage_iff (reads : Reads source holds) {list : List Bytes} {state : σ}
    (related : holds state list) (size : Nat) (message : Bytes) :
    (ldapRecvMessage source size state).1 = some message ↔
      (∃ after, list.flatten = message ++ after) ∧ Framed size message ∧
        Undivided list 0 message := by
  constructor
  · intro received
    obtain ⟨framed, undivided, rest, behind⟩ := recvMessage_some reads related received
    exact ⟨⟨rest.flatten, behind.joined⟩, framed, undivided⟩
  · rintro ⟨⟨after, joined⟩, framed, undivided⟩
    exact recvMessage_framed reads related joined framed undivided

/-- A message behind another one is divided as before. -/
theorem Behind.undivided_iff {list rest : List Bytes} {message : Bytes} {state : σ}
    (behind : Behind holds list message state rest) (next : Bytes) :
    Undivided rest 0 next ↔ Undivided list message.length next := by
  have header := behind.divided 0 2
  have field := behind.divided 2 (fieldLength next)
  have body := behind.divided (2 + fieldLength next) (bodyLength next)
  rw [Nat.add_zero] at header
  rw [← Nat.add_assoc] at body
  constructor
  · intro undivided
    refine ⟨header.mp undivided.header, fun some => ?_, fun some => ?_⟩
    · have here := undivided.field some
      rw [Nat.zero_add] at here
      exact field.mp here
    · have here := undivided.body some
      rw [Nat.zero_add] at here
      exact body.mp here
  · intro undivided
    refine ⟨header.mpr undivided.header, fun some => ?_, fun some => ?_⟩
    · rw [Nat.zero_add]
      exact field.mpr (undivided.field some)
    · rw [Nat.zero_add]
      exact body.mpr (undivided.body some)

/-- Reading up to the end of a search ends: every message has two bytes at least. -/
theorem drainSearch_ends (reads : Reads source holds) (beyond : Nat → UInt8) {rounds : Nat}
    {list : List Bytes} {state : σ} (related : holds state list)
    (enough : list.flatten.length < rounds) (message : Option Bytes) :
    drainSearch source beyond rounds message state = some () := by
  induction rounds generalizing list state message with
  | zero => omega
  | succ rounds ih =>
    cases message with
    | none => rfl
    | some message =>
      unfold drainSearch
      split
      · rfl
      · cases received : (ldapRecvMessage source 8192 state).1 with
        | none =>
          dsimp only
          rw [received]
          unfold drainSearch
          rfl
        | some next =>
          obtain ⟨framed, -, rest, behind⟩ := recvMessage_some reads related received
          have shorter := congrArg List.length behind.joined
          rw [List.length_append] at shorter
          have counted := framed.counted
          dsimp only
          rw [received]
          exact ih behind.held (by omega) (some next)

/-- The groups are the ones in the first message. -/
theorem ldapGroups_first (reads : Reads source holds) (beyond : Nat → UInt8) {rounds : Nat}
    {list : List Bytes} {state : σ} (related : holds state list)
    (enough : list.flatten.length < rounds) (groupAttr : Bytes) :
    ldapGroups source beyond rounds groupAttr state =
      some ((ldapRecvMessage source 8192 state).1.bind (entryGroups beyond groupAttr)) := by
  unfold ldapGroups
  cases received : (ldapRecvMessage source 8192 state).1 with
  | none =>
    dsimp only
    rw [received]
    unfold drainSearch
    rfl
  | some first =>
    obtain ⟨-, -, rest, behind⟩ := recvMessage_some reads related received
    have shorter := congrArg List.length behind.joined
    rw [List.length_append] at shorter
    dsimp only
    rw [received, drainSearch_ends reads beyond behind.held (by omega)]
    rfl

end Receive

/-! ## The two connections -/

/-- In one piece nothing is divided. -/
theorem undivided_onePiece {size : Nat} {message after : Bytes} (framed : Framed size message) :
    Undivided (onePiece (message ++ after)) 0 message := by
  have counted := framed.counted
  have total : (message ++ after).length = message.length + after.length := List.length_append
  refine ⟨onePiece_unbroken (by omega) (by omega), fun some => onePiece_unbroken some (by omega),
    fun some => onePiece_unbroken some (by omega)⟩

/-- A message is read from a socket exactly when it stands in front and is well framed. -/
theorem recvMessage_sock_iff {segments : List Bytes} (filled : ∀ part ∈ segments, part ≠ [])
    (size : Nat) (message : Bytes) :
    (ldapRecvMessage sockSource size segments).1 = some message ↔
      (∃ after, segments.flatten = message ++ after) ∧ Framed size message := by
  have related : (∀ part ∈ segments, part ≠ []) ∧
      onePiece segments.flatten = onePiece segments.flatten := ⟨filled, rfl⟩
  rw [sockSource, recvMessage_iff joined_reads related, onePiece_flatten]
  constructor
  · exact fun all => ⟨all.1, all.2.1⟩
  · rintro ⟨⟨after, joined⟩, framed⟩
    refine ⟨⟨after, joined⟩, framed, ?_⟩
    rw [joined]
    exact undivided_onePiece framed

section Tls

variable {Cert RsaKey : Type} {crypto : Crypto Cert RsaKey}

/-- What a connection still has: kept bytes and the records of a server that only sends data. -/
structure Carries (crypto : Crypto Cert RsaKey) (suite : Nat) (ending : Ending) (reader : Reader)
    (list : List Bytes) : Prop where
  /-- The bytes and the records. -/
  carried : ∃ keys records kept, (∀ record ∈ records, record.contentType = tlsApplicationData) ∧
    reader = ⟨serverStream crypto suite ending keys records, keys, kept⟩ ∧
    list = onePiece kept ++ records.map (·.content)

/-- What a read of kept bytes does. -/
theorem tlsSource_kept (suite : Nat) {input kept : Bytes} {keys : Direction} {count : Nat}
    (positive : 0 < count) (some_kept : kept ≠ []) :
    (tlsSource crypto suite).read ⟨input, keys, kept⟩ count =
      (if (kept.take count).length = count then some (kept.take count) else none,
        ⟨input, keys, kept.drop count⟩) := by
  have call : cookbookTlsRecv crypto suite ⟨input, keys, kept⟩ count =
      (.bytes (kept.take count), ⟨input, keys, kept.drop count⟩) :=
    tlsRecv_buffered suite positive some_kept
  simp only [tlsSource, call]

/-- A read from a list of pieces in front of which there is one. -/
theorem pieces_read_front {kept : Bytes} {count : Nat} (some_kept : kept ≠ [])
    (rest : List Bytes) :
    pieces.read (kept :: rest) count =
      if (kept.take count).length = count then
        (some (kept.take count), onePiece (kept.drop count) ++ rest)
      else (none, rest) := by
  have length : (kept.take count).length = min count kept.length := List.length_take
  have read : pieces.read (kept :: rest) count =
      if kept = [] ∨ kept.length < count then (none, rest)
      else if kept.length = count then (some kept, rest)
      else (some (kept.take count), kept.drop count :: rest) := rfl
  rw [read, length]
  by_cases short : kept.length < count
  · rw [if_pos (.inr short), if_neg (by omega)]
  · have filled : ¬(kept = [] ∨ kept.length < count) := by
      rw [not_or]
      exact ⟨some_kept, short⟩
    have all : min count kept.length = count := by omega
    rw [if_neg filled, if_pos all]
    by_cases exactly : kept.length = count
    · rw [if_pos exactly, ← exactly, List.take_length, List.drop_length]
      rfl
    · have left : kept.drop count ≠ [] :=
        List.ne_nil_of_length_pos (by rw [List.length_drop]; omega)
      rw [if_neg exactly, onePiece, if_neg left]
      rfl

/-- What a read of a new record does. -/
theorem tlsSource_record (seals : crypto.Seals) (suite : Nat) (keys : Direction) {count : Nat}
    (positive : 0 < count) {record : PostRecord}
    (data : record.contentType = tlsApplicationData) (rest : Bytes) :
    (tlsSource crypto suite).read ⟨protectRecord crypto suite keys record.plain ++ rest, keys, []⟩
        count =
      if record.content = [] then (none, ⟨rest, keys.next, []⟩)
      else (if (record.content.take count).length = count then some (record.content.take count)
        else none, ⟨rest, keys.next, record.content.drop count⟩) := by
  have call := tlsRecv_record seals suite keys positive record rest
  by_cases empty : record.content = []
  · rw [if_neg (fun both => both.2 empty)] at call
    simp only [tlsSource, call, if_pos empty]
  · rw [if_pos ⟨data, empty⟩] at call
    simp only [tlsSource, call, if_neg empty]

/-- Over TLS a server's data are read like the contents of its records. -/
theorem tlsSource_reads (seals : crypto.Seals) (suite : Nat) (ending : Ending) :
    Reads (tlsSource crypto suite) (Carries crypto suite ending) := by
  have step : ∀ reader list count, 0 < count → Carries crypto suite ending reader list →
      ((tlsSource crypto suite).read reader count).1 = (pieces.read list count).1 ∧
        ∀ data rest, pieces.read list count = (some data, rest) →
          Carries crypto suite ending ((tlsSource crypto suite).read reader count).2 rest := by
    intro reader list count positive carries
    obtain ⟨keys, records, kept, data, shape, same⟩ := carries.carried
    rw [shape, same]
    by_cases empty : kept = []
    · subst empty
      have nothing : onePiece ([] : Bytes) = [] := rfl
      rw [nothing, List.nil_append]
      cases records with
      | nil =>
        have last := tlsRecv_ending seals suite ending keys positive
        refine ⟨?_, fun _ _ read => by cases read⟩
        show ((tlsSource crypto suite).read _ _).1 = none
        cases call : cookbookTlsRecv crypto suite
          ⟨serverStream crypto suite ending keys [], keys, []⟩ count with
        | mk result later =>
          rw [call] at last
          dsimp only at last
          rw [last] at call
          simp only [tlsSource, call]
          cases ending <;> rfl
      | cons record records =>
        have here := data record List.mem_cons_self
        have later := fun other member => data other (List.mem_cons_of_mem _ member)
        have stream : serverStream crypto suite ending keys (record :: records) =
            protectRecord crypto suite keys record.plain ++
              serverStream crypto suite ending keys.next records := rfl
        rw [stream, tlsSource_record seals suite keys positive here, List.map_cons]
        by_cases blank : record.content = []
        · have read : pieces.read (record.content :: records.map (·.content)) count =
              (none, records.map (·.content)) := if_pos (.inl blank)
          rw [if_pos blank, read]
          exact ⟨rfl, fun _ _ read => by cases read⟩
        · rw [if_neg blank, pieces_read_front blank]
          split
          · refine ⟨rfl, ?_⟩
            intro handed rest read
            cases read
            exact ⟨keys.next, records, record.content.drop count, later, rfl, rfl⟩
          · exact ⟨rfl, fun _ _ read => by cases read⟩
    · have one : onePiece kept = [kept] := if_neg empty
      rw [tlsSource_kept suite positive empty, one, List.singleton_append,
        pieces_read_front empty]
      split
      · refine ⟨rfl, ?_⟩
        intro handed rest read
        cases read
        exact ⟨keys, records, kept.drop count, data, rfl, rfl⟩
      · exact ⟨rfl, fun _ _ read => by cases read⟩
  constructor
  · exact fun reader list count positive carries => (step reader list count positive carries).1
  · exact fun reader list count handed rest positive carries read =>
      (step reader list count positive carries).2 handed rest read

end Tls

/-! ## Binds -/

section Bind

variable {σ : Type} {source : Source σ UInt8} {holds : σ → List Bytes → Prop} {list : List Bytes}
  {state : σ} {segments : List Bytes}

/-- Where a socket has no message, another source with the same data has none. -/
theorem recvMessage_sock_none (reads : Reads source holds) (related : holds state list)
    (filled : ∀ part ∈ segments, part ≠ []) (same : segments.flatten = list.flatten) {size : Nat}
    (nothing : (ldapRecvMessage sockSource size segments).1 = none) :
    (ldapRecvMessage source size state).1 = none := by
  cases received : (ldapRecvMessage source size state).1 with
  | none => rfl
  | some message =>
    obtain ⟨front, framed, -⟩ := (recvMessage_iff reads related size message).mp received
    rw [← same] at front
    have found := (recvMessage_sock_iff filled size message).mpr ⟨front, framed⟩
    rw [nothing] at found
    cases found

/-- Where a socket has a message, another source with the same data has it or none: it has it exactly
when it is undivided. -/
theorem recvMessage_sock_some (reads : Reads source holds) (related : holds state list)
    (filled : ∀ part ∈ segments, part ≠ []) (same : segments.flatten = list.flatten) {size : Nat}
    {message : Bytes} (found : (ldapRecvMessage sockSource size segments).1 = some message) :
    (Undivided list 0 message → (ldapRecvMessage source size state).1 = some message) ∧
      (¬Undivided list 0 message → (ldapRecvMessage source size state).1 = none) := by
  obtain ⟨front, framed⟩ := (recvMessage_sock_iff filled size message).mp found
  apply And.intro
  · intro undivided
    rw [same] at front
    exact (recvMessage_iff reads related size message).mpr ⟨front, framed, undivided⟩
  · intro divided
    cases received : (ldapRecvMessage source size state).1 with
    | none => rfl
    | some other =>
      obtain ⟨frontOther, framedOther, undivided⟩ :=
        (recvMessage_iff reads related size other).mp received
      rw [← same] at frontOther
      have again := (recvMessage_sock_iff filled size other).mpr ⟨frontOther, framedOther⟩
      rw [found] at again
      cases again
      exact absurd undivided divided

/-- There is one message in front of the data. -/
theorem recvMessage_sock_unique (filled : ∀ part ∈ segments, part ≠ []) {size : Nat}
    {message : Bytes} (found : (ldapRecvMessage sockSource size segments).1 = some message)
    {other after : Bytes} (front : segments.flatten = other ++ after) (framed : Framed size other) :
    other = message := by
  have again := (recvMessage_sock_iff filled size other).mpr ⟨⟨after, front⟩, framed⟩
  rw [found] at again
  exact (Option.some.inj again).symm

/-- What a socket has behind its message. -/
theorem recvMessage_sock_behind (filled : ∀ part ∈ segments, part ≠ []) {size : Nat}
    {message after : Bytes} (found : (ldapRecvMessage sockSource size segments).1 = some message)
    (front : segments.flatten = message ++ after) :
    (∀ part ∈ (ldapRecvMessage sockSource size segments).2, part ≠ []) ∧
      (ldapRecvMessage sockSource size segments).2.flatten = after := by
  have related : (∀ part ∈ segments, part ≠ []) ∧
      onePiece segments.flatten = onePiece segments.flatten := ⟨filled, rfl⟩
  obtain ⟨-, -, rest, behind⟩ := recvMessage_some joined_reads related found
  obtain ⟨filledLater, later⟩ := behind.held
  have joined := behind.joined
  rw [onePiece_flatten, front] at joined
  have flat := List.append_cancel_left joined
  rw [later, onePiece_flatten] at flat
  exact ⟨filledLater, flat.symm⟩

/-- What is taken from the first message is the same exactly when a message from which something is
taken is undivided. -/
theorem recvMessage_bind_iff (reads : Reads source holds) (related : holds state list)
    (filled : ∀ part ∈ segments, part ≠ []) (same : segments.flatten = list.flatten) (size : Nat)
    (take : Bytes → Option Bytes) :
    (ldapRecvMessage source size state).1.bind take =
        (ldapRecvMessage sockSource size segments).1.bind take ↔
      ∀ message after, list.flatten = message ++ after → Framed size message →
        take message ≠ none → Undivided list 0 message := by
  cases plain : (ldapRecvMessage sockSource size segments).1 with
  | none =>
    rw [recvMessage_sock_none reads related filled same plain]
    refine iff_of_true rfl ?_
    intro message after front framed
    rw [← same] at front
    have found := (recvMessage_sock_iff filled size message).mpr ⟨⟨after, front⟩, framed⟩
    rw [plain] at found
    cases found
  | some message =>
    obtain ⟨⟨after, front⟩, framed⟩ := (recvMessage_sock_iff filled size message).mp plain
    have both := recvMessage_sock_some reads related filled same plain
    have only : (∀ other rest, list.flatten = other ++ rest → Framed size other →
        take other ≠ none → Undivided list 0 other) ↔
          (take message ≠ none → Undivided list 0 message) := by
      constructor
      · intro all
        exact all message after (same.symm.trans front) framed
      · intro one other rest frontOther framedOther
        rw [← same] at frontOther
        rw [recvMessage_sock_unique filled plain frontOther framedOther]
        exact one
    rw [only]
    by_cases undivided : Undivided list 0 message
    · rw [both.1 undivided]
      exact iff_of_true rfl fun _ => undivided
    · rw [both.2 undivided]
      constructor
      · intro equal taken
        exact absurd equal.symm taken
      · intro one
        have nothing : take message = none := by
          by_contra taken
          exact undivided (one taken)
        exact nothing.symm

variable (beyond : Nat → UInt8) (cfg : LdapConfig) (subject password : Bytes) (wantsGroups : Bool)

/-- A search for the groups of a user is sent. -/
def LdapConfig.Searches (groupAttr : Bytes) : Prop :=
  wantsGroups = true ∧ cfg.groupAttr = some groupAttr ∧
    ∃ request, cfg.searchRequest subject groupAttr = .done (some request)

/-- What comes of the search, from its first message. -/
def searchOutcome (sent : List Bytes) (first : Option Bytes) : Outcome LdapResult :=
  match if wantsGroups then cfg.groupAttr else none with
  | none => .done ⟨0, none, sent⟩
  | some groupAttr =>
    match cfg.searchRequest subject groupAttr with
    | .overrun => .overrun
    | .done none => .done ⟨0, none, sent⟩
    | .done (some request) =>
      .done ⟨0, first.bind (entryGroups beyond groupAttr), sent ++ [request]⟩

/-- The search comes to its outcome. -/
theorem ldapSearch_outcome (reads : Reads source holds) (related : holds state list) {rounds : Nat}
    (enough : list.flatten.length < rounds) (sent : List Bytes) :
    ldapSearch source beyond rounds cfg subject wantsGroups sent state =
      some (searchOutcome beyond cfg subject wantsGroups sent
        (ldapRecvMessage source 8192 state).1) := by
  unfold ldapSearch searchOutcome
  cases (if wantsGroups then cfg.groupAttr else none) with
  | none => rfl
  | some groupAttr =>
    dsimp only
    cases cfg.searchRequest subject groupAttr with
    | overrun => rfl
    | done request =>
      cases request with
      | none => rfl
      | some request =>
        dsimp only
        rw [ldapGroups_first reads beyond related enough]
        rfl

/-- Two outcomes are the same when the same groups are taken from the first messages. -/
theorem searchOutcome_eq_iff (sent : List Bytes) (first second : Option Bytes) :
    searchOutcome beyond cfg subject wantsGroups sent first =
        searchOutcome beyond cfg subject wantsGroups sent second ↔
      ∀ groupAttr, cfg.Searches subject wantsGroups groupAttr →
        first.bind (entryGroups beyond groupAttr) = second.bind (entryGroups beyond groupAttr) := by
  unfold searchOutcome LdapConfig.Searches
  cases wantsGroups with
  | false => exact iff_of_true rfl fun _ searches => by cases searches.1
  | true =>
    rw [if_pos rfl]
    cases named : cfg.groupAttr with
    | none => exact iff_of_true rfl fun _ searches => by cases searches.2.1
    | some groupAttr =>
      dsimp only
      cases built : cfg.searchRequest subject groupAttr with
      | overrun =>
        refine iff_of_true rfl ?_
        rintro other ⟨-, equal, request, sent⟩
        cases equal
        rw [built] at sent
        cases sent
      | done request =>
        cases request with
        | none =>
          refine iff_of_true rfl ?_
          rintro other ⟨-, equal, request, sent⟩
          cases equal
          rw [built] at sent
          cases sent
        | some request =>
          dsimp only
          constructor
          · rintro equal other ⟨-, same, -⟩
            cases same
            have results := Outcome.done.inj equal
            exact congrArg LdapResult.groups results
          · intro equal
            rw [equal groupAttr ⟨rfl, rfl, request, built⟩]

/-- A search does not undo the success of the bind. -/
theorem searchOutcome_ne (sent : List Bytes) (first : Option Bytes) :
    searchOutcome beyond cfg subject wantsGroups sent first ≠ .done ⟨-1, none, sent⟩ := by
  unfold searchOutcome
  cases (if wantsGroups then cfg.groupAttr else none) with
  | none => exact fun same => by cases same
  | some groupAttr =>
    dsimp only
    cases cfg.searchRequest subject groupAttr with
    | overrun => exact fun same => by cases same
    | done request => cases request <;> exact fun same => by cases same

/-- A bind that reads its response. -/
theorem ldapExchange_response {rounds : Nat} {request : Bytes}
    (built : cfg.bindRequest subject password = some request) :
    ldapExchange source beyond rounds cfg subject password wantsGroups state =
      match (ldapRecvMessage source 4096 state).1 with
      | none => some (.done ⟨-1, none, [request]⟩)
      | some response =>
        if parseBindResponse ⟨response, beyond⟩ response.length ≠ 0 then
          some (.done ⟨-1, none, [request]⟩)
        else ldapSearch source beyond rounds cfg subject wantsGroups [request]
          (ldapRecvMessage source 4096 state).2 := by
  unfold ldapExchange
  rw [built]
  dsimp only
  cases ldapRecvMessage source 4096 state with
  | mk first later => cases first <;> rfl

/-- The messages that matter are not divided: a successful response to the bind, and the entry from
which groups are taken. -/
def ReadsUndivided (list : List Bytes) : Prop :=
  ∀ response rest, list.flatten = response ++ rest → Framed 4096 response →
    cfg.bindRequest subject password ≠ none →
    parseBindResponse ⟨response, beyond⟩ response.length = 0 →
    Undivided list 0 response ∧ ∀ groupAttr entry after,
      cfg.Searches subject wantsGroups groupAttr → rest = entry ++ after → Framed 8192 entry →
      entryGroups beyond groupAttr entry ≠ none → Undivided list response.length entry

/-- Over a source that reads like pieces a bind ends like over a socket exactly when the messages that
matter are not divided. -/
theorem ldapExchange_same_iff (reads : Reads source holds) (related : holds state list)
    (filled : ∀ part ∈ segments, part ≠ []) (same : segments.flatten = list.flatten) {rounds : Nat}
    (enough : list.flatten.length < rounds) :
    (∃ result, ldapExchange source beyond rounds cfg subject password wantsGroups state =
        some result ∧
      ldapExchange sockSource beyond rounds cfg subject password wantsGroups segments =
        some result) ↔ ReadsUndivided beyond cfg subject password wantsGroups list := by
  cases built : cfg.bindRequest subject password with
  | none =>
    refine iff_of_true ⟨.done ⟨-1, none, []⟩, ?_, ?_⟩ ?_
    · unfold ldapExchange
      rw [built]
    · unfold ldapExchange
      rw [built]
    · exact fun _ _ _ _ sends => absurd built sends
  | some request =>
    rw [ldapExchange_response beyond cfg subject password wantsGroups built,
      ldapExchange_response beyond cfg subject password wantsGroups built]
    cases plain : (ldapRecvMessage sockSource 4096 segments).1 with
    | none =>
      rw [recvMessage_sock_none reads related filled same plain]
      refine iff_of_true ⟨_, rfl, rfl⟩ ?_
      intro response rest front framed
      rw [← same] at front
      have found := (recvMessage_sock_iff filled 4096 response).mpr ⟨⟨rest, front⟩, framed⟩
      rw [plain] at found
      cases found
    | some response =>
      obtain ⟨⟨after, front⟩, framed⟩ := (recvMessage_sock_iff filled 4096 response).mp plain
      have both := recvMessage_sock_some reads related filled same plain
      dsimp only
      by_cases success : parseBindResponse ⟨response, beyond⟩ response.length = 0
      · have refused : ¬parseBindResponse ⟨response, beyond⟩ response.length ≠ 0 :=
          not_not_intro success
        rw [if_neg refused]
        obtain ⟨filledLater, laterFlat⟩ := recvMessage_sock_behind filled plain front
        have total := congrArg List.length front
        rw [List.length_append, same] at total
        have plainRelated : (∀ part ∈ (ldapRecvMessage sockSource 4096 segments).2, part ≠ []) ∧
            onePiece after = onePiece (ldapRecvMessage sockSource 4096 segments).2.flatten :=
          ⟨filledLater, by rw [laterFlat]⟩
        have plainEnough : (onePiece after).flatten.length < rounds := by
          rw [onePiece_flatten]
          omega
        have plainReads : Reads sockSource fun parts list =>
            (∀ part ∈ parts, part ≠ []) ∧ list = onePiece parts.flatten := joined_reads
        rw [ldapSearch_outcome beyond cfg subject wantsGroups plainReads plainRelated plainEnough]
        by_cases undivided : Undivided list 0 response
        · have secured := both.1 undivided
          obtain ⟨-, -, rest, behind⟩ := recvMessage_some reads related secured
          have restFlat : rest.flatten = after :=
            List.append_cancel_left (behind.joined.symm.trans (same.symm.trans front))
          have restEnough : rest.flatten.length < rounds := by
            rw [restFlat]
            omega
          rw [secured]
          dsimp only
          rw [if_neg refused, ldapSearch_outcome beyond cfg subject wantsGroups reads behind.held
            restEnough]
          have equal : ∀ first second : Outcome LdapResult,
              (∃ result, some first = some result ∧ some second = some result) ↔
                first = second := by
            intro first second
            constructor
            · rintro ⟨result, one, two⟩
              exact Option.some.inj (one.trans two.symm)
            · exact fun same => ⟨second, congrArg some same, rfl⟩
          rw [equal, searchOutcome_eq_iff]
          constructor
          · intro groups other rest' frontOther framedOther _ _
            have known := frontOther
            rw [← same] at frontOther
            have it := recvMessage_sock_unique filled plain frontOther framedOther
            rw [it] at known ⊢
            have behindIt : rest' = after :=
              List.append_cancel_left (known.symm.trans (same.symm.trans front))
            refine ⟨undivided, ?_⟩
            intro groupAttr entry tail searches split framedEntry found
            have all := (recvMessage_bind_iff reads behind.held filledLater
              (laterFlat.trans restFlat.symm) 8192 (entryGroups beyond groupAttr)).mp
                (groups groupAttr searches)
            rw [← behind.undivided_iff]
            refine all entry tail ?_ framedEntry found
            rw [restFlat, ← behindIt, split]
          · intro holdsAll groupAttr searches
            have sends : cfg.bindRequest subject password ≠ none := by
              rw [built]
              exact Option.some_ne_none request
            have entries := (holdsAll response after (same.symm.trans front) framed sends
              success).2
            refine (recvMessage_bind_iff reads behind.held filledLater
              (laterFlat.trans restFlat.symm) 8192 (entryGroups beyond groupAttr)).mpr ?_
            intro entry tail split framedEntry found
            rw [behind.undivided_iff]
            exact entries groupAttr entry tail searches (restFlat.symm.trans split) framedEntry
              found
        · rw [both.2 undivided]
          dsimp only
          refine iff_of_false ?_ ?_
          · rintro ⟨result, failed, succeeded⟩
            have same := Option.some.inj (failed.trans succeeded.symm)
            exact searchOutcome_ne beyond cfg subject wantsGroups _ _ same.symm
          · intro holdsAll
            have sends : cfg.bindRequest subject password ≠ none := by
              rw [built]
              exact Option.some_ne_none request
            exact undivided (holdsAll response after (same.symm.trans front) framed sends
              success).1
      · have refused : parseBindResponse ⟨response, beyond⟩ response.length ≠ 0 := success
        rw [if_pos refused]
        refine iff_of_true ⟨_, ?_, rfl⟩ ?_
        · by_cases undivided : Undivided list 0 response
          · rw [both.1 undivided]
            exact if_pos refused
          · rw [both.2 undivided]
        · intro other rest frontOther framedOther _ successOther
          rw [← same] at frontOther
          rw [recvMessage_sock_unique filled plain frontOther framedOther] at successOther
          exact absurd successOther refused

end Bind

/-! ## Both URLs -/

/-- A client that binds to a host with TLS and without ends in the same way. -/
def SameOverTls {Cert RsaKey : Type} (crypto : Crypto Cert RsaKey) (suite : Nat) (net : LdapNet)
    (beyond : Nat → UInt8) (rounds : Nat) (cfg : LdapConfig) (address subject password : Bytes)
    (wantsGroups : Bool) : Prop :=
  ∃ result,
    cookbookLdapBind crypto suite net beyond rounds
      { cfg with url := some (ascii "ldaps://" ++ address) } subject password wantsGroups =
        some result ∧
    cookbookLdapBind crypto suite net beyond rounds
      { cfg with url := some (ascii "ldap://" ++ address) } subject password wantsGroups =
        some result

/-- A URL of the secure scheme. -/
theorem ldapTarget_secure (address : Bytes) :
    (ldapTarget (ascii "ldaps://" ++ address)).1 = true := by
  have front : (ascii "ldaps://").isPrefixOf (ascii "ldaps://" ++ address) = true :=
    List.isPrefixOf_iff_prefix.mpr (List.prefix_append _ _)
  simp only [ldapTarget, front, if_true]

/-- A URL of the plain scheme. -/
theorem ldapTarget_plain (address : Bytes) :
    (ldapTarget (ascii "ldap://" ++ address)).1 = false := by
  have other : (ascii "ldaps://").isPrefixOf (ascii "ldap://" ++ address) = false := rfl
  have front : (ascii "ldap://").isPrefixOf (ascii "ldap://" ++ address) = true :=
    List.isPrefixOf_iff_prefix.mpr (List.prefix_append _ _)
  simp only [ldapTarget, other, front, if_true, Bool.false_eq_true, if_false]

/-- The exchange does not look at the URL. -/
theorem ldapExchange_url {σ : Type} (source : Source σ UInt8) (beyond : Nat → UInt8) (rounds : Nat)
    (cfg : LdapConfig) (url : Option Bytes) (subject password : Bytes) (wantsGroups : Bool)
    (state : σ) :
    ldapExchange source beyond rounds { cfg with url } subject password wantsGroups state =
      ldapExchange source beyond rounds cfg subject password wantsGroups state := by
  have bind : { cfg with url }.bindRequest subject password = cfg.bindRequest subject password := rfl
  have search (groupAttr : Bytes) : { cfg with url }.searchRequest subject groupAttr =
      cfg.searchRequest subject groupAttr := rfl
  simp only [ldapExchange, ldapSearch, bind, search]

/-- A bind ends over TLS like over a socket exactly when no record ends inside a read of the messages
that matter, and no empty record stands in front of one. -/
theorem ldapBind_sameOverTls_iff {Cert RsaKey : Type} {crypto : Crypto Cert RsaKey}
    (seals : crypto.Seals) (suite : Nat) (ending : Ending) (keys : Direction)
    {records : List PostRecord}
    (data : ∀ record ∈ records, record.contentType = tlsApplicationData) {segments : List Bytes}
    (filled : ∀ part ∈ segments, part ≠ []) (same : segments.flatten = applicationBytes records)
    (beyond : Nat → UInt8) {rounds : Nat} (enough : (applicationBytes records).length < rounds)
    (cfg : LdapConfig) (address subject password : Bytes) (wantsGroups : Bool) :
    SameOverTls crypto suite ⟨fun _ _ => some segments,
        fun _ _ => some ⟨serverStream crypto suite ending keys records, keys, []⟩⟩ beyond rounds
        cfg address subject password wantsGroups ↔
      ReadsUndivided beyond cfg subject password wantsGroups (records.map (·.content)) := by
  have contents : applicationBytes records = (records.map (·.content)).flatten := by
    have all : records.filter (·.contentType == tlsApplicationData) = records := by
      rw [List.filter_eq_self]
      exact fun record member => beq_iff_eq.mpr (data record member)
    rw [applicationBytes, all, List.flatMap_def]
  have carries : Carries crypto suite ending
      ⟨serverStream crypto suite ending keys records, keys, []⟩ (records.map (·.content)) :=
    ⟨keys, records, [], data, rfl, rfl⟩
  rw [contents] at same enough
  rw [← ldapExchange_same_iff beyond cfg subject password wantsGroups
    (tlsSource_reads seals suite ending) carries filled same enough]
  have secure := ldapTarget_secure address
  have plain := ldapTarget_plain address
  unfold SameOverTls cookbookLdapBind
  simp only [secure, plain, if_true, Bool.false_eq_true, if_false, ldapExchange_url]

/-! ## A directory -/

/-- Data have one message in front. -/
theorem framed_unique {size : Nat} {first second after later : Bytes}
    (same : first ++ after = second ++ later) (framed : Framed size first)
    (framedSecond : Framed size second) : second = first := by
  have counted := framed.counted
  have filled : ∀ part ∈ [first ++ after], part ≠ [] := by
    intro part member
    rw [List.mem_singleton.mp member]
    exact List.ne_nil_of_length_pos (by rw [List.length_append]; omega)
  have found := (recvMessage_sock_iff filled size first).mpr
    ⟨⟨after, List.flatten_singleton⟩, framed⟩
  exact recvMessage_sock_unique filled found (List.flatten_singleton.trans same) framedSecond

/-- The users of a directory and the attribute with their groups. -/
def directory : LdapConfig where
  url := none
  baseDn := some (ascii "dc=x")
  userAttr := none
  groupAttr := some (ascii "memberOf")
  groupBase := none

/-- A bind response with the code for success. -/
def bindSuccess : Bytes :=
  [0x30, 0x0C, 0x02, 0x01, 0x01, 0x61, 0x07, 0x0A, 0x01, 0x00, 0x04, 0x00, 0x04, 0x00]

/-- An entry whose group is `core`. -/
def coreEntry : Bytes :=
  [0x30, 0x25, 0x02, 0x01, 0x02, 0x64, 0x20, 0x04, 0x00, 0x30, 0x1C, 0x30, 0x1A, 0x04, 0x08] ++
    ascii "memberOf" ++ [0x31, 0x0E, 0x04, 0x0C] ++ ascii "cn=core,dc=x"

/-- The end of a search. -/
def searchDone : Bytes :=
  [0x30, 0x0C, 0x02, 0x01, 0x02, 0x65, 0x07, 0x0A, 0x01, 0x00, 0x04, 0x00, 0x04, 0x00]

/-- Application data is a kind of record. -/
theorem applicationData_kind :
    tlsApplicationData = tlsApplicationData ∨ tlsApplicationData = tlsHandshake := .inl rfl

/-- A record with application data. -/
def dataRecord (content : Bytes) (fits : content.length + 0 ≤ tlsRecordMax) : PostRecord :=
  ⟨tlsApplicationData, content, 0, applicationData_kind, fits⟩

/-- The response in one record, entry and end of the search in another one. -/
def wholeRecords : List PostRecord :=
  [dataRecord bindSuccess (by decide), dataRecord (coreEntry ++ searchDone) (by decide)]

/-- The group of a user is found over TLS too. -/
theorem ldapBind_sameOverTls_whole :
    SameOverTls loopback tlsAes128GcmSha256
      ⟨fun _ _ => some [bindSuccess, coreEntry ++ searchDone],
        fun _ _ => some ⟨serverStream loopback tlsAes128GcmSha256 .close ⟨[], [], 0⟩ wholeRecords,
          ⟨[], [], 0⟩, []⟩⟩ (fun _ => 0) 100 directory (ascii "ldap.local") (ascii "alice")
        (ascii "secret") true := by
  refine (ldapBind_sameOverTls_iff loopback_seals _ .close _ (by decide) (by decide) (by decide) _
    (by decide) directory _ _ _ true).mpr ?_
  intro response rest front framed _ _
  have framedBind : Framed 4096 bindSuccess := ⟨by decide, by decide, by decide⟩
  have framedEntry : Framed 8192 coreEntry := ⟨by decide, by decide, by decide⟩
  have split : bindSuccess ++ (coreEntry ++ searchDone) = response ++ rest := front
  have it := framed_unique split framedBind framed
  subst it
  refine ⟨⟨by decide, by decide, by decide⟩, ?_⟩
  intro groupAttr entry after _ behind framedOther _
  have next : coreEntry ++ searchDone = entry ++ after :=
    (List.append_cancel_left split).trans behind
  have same := framed_unique next framedEntry framedOther
  subst same
  exact ⟨by decide, by decide, by decide⟩

/-- The response in two records. -/
def dividedRecords : List PostRecord :=
  [dataRecord (bindSuccess.take 7) (by decide), dataRecord (bindSuccess.drop 7) (by decide)]

/-- A user whose response comes in two records is let in over a socket and refused over TLS. -/
theorem ldapBind_dividedResponse :
    (∀ record ∈ dividedRecords, record.contentType = tlsApplicationData) ∧
      [bindSuccess].flatten = applicationBytes dividedRecords ∧
      ¬SameOverTls loopback tlsAes128GcmSha256 ⟨fun _ _ => some [bindSuccess], fun _ _ =>
          some ⟨serverStream loopback tlsAes128GcmSha256 .close ⟨[], [], 0⟩ dividedRecords,
            ⟨[], [], 0⟩, []⟩⟩ (fun _ => 0) 100 directory (ascii "ldap.local") (ascii "alice")
        (ascii "secret") false := by
  refine ⟨by decide, by decide, ?_⟩
  rintro ⟨result, tls, plain⟩
  have refused : cookbookLdapBind loopback tlsAes128GcmSha256 ⟨fun _ _ => some [bindSuccess],
      fun _ _ => some ⟨serverStream loopback tlsAes128GcmSha256 .close ⟨[], [], 0⟩ dividedRecords,
        ⟨[], [], 0⟩, []⟩⟩ (fun _ => 0) 100
      { directory with url := some (ascii "ldaps://" ++ ascii "ldap.local") } (ascii "alice")
      (ascii "secret") false ≠
    cookbookLdapBind loopback tlsAes128GcmSha256 ⟨fun _ _ => some [bindSuccess],
      fun _ _ => some ⟨serverStream loopback tlsAes128GcmSha256 .close ⟨[], [], 0⟩ dividedRecords,
        ⟨[], [], 0⟩, []⟩⟩ (fun _ => 0) 100
      { directory with url := some (ascii "ldap://" ++ ascii "ldap.local") } (ascii "alice")
      (ascii "secret") false := by
    decide +kernel
  exact refused (tls.trans plain.symm)

end Cookbook.Ldap
