import Cookbook.Library.Buffer
import Mathlib.Data.List.DropRight

/-!
# TLS records

The record layer of the client reads a header of five bytes and a body from the socket. Once keys
are installed it decrypts application-data records and takes every other record as it is. The
cryptographic primitives, the certificate parser and the trust store are parameters.
-/
namespace Cookbook.Tls

open Library.Text

/-! ## Memory -/

/-- A buffer with the bytes that lie behind it in memory: a read behind its end finds those. -/
structure Region where
  /-- The bytes of the buffer. -/
  bytes : Bytes
  /-- The bytes behind it. -/
  beyond : Nat → UInt8

namespace Region

/-- The byte at an offset. -/
def get (region : Region) (offset : Nat) : UInt8 :=
  region.bytes.getD offset (region.beyond (offset - region.bytes.length))

/-- Consecutive bytes. -/
def slice (region : Region) (offset length : Nat) : Bytes :=
  (List.range length).map fun index => region.get (offset + index)

/-- `get_u16` -/
def getU16 (region : Region) (offset : Nat) : Nat :=
  (region.get offset).toNat * 256 + (region.get (offset + 1)).toNat

/-- `get_u24` -/
def getU24 (region : Region) (offset : Nat) : Nat :=
  (region.get offset).toNat * 65536 + region.getU16 (offset + 1)

end Region

/-- `put_u16` -/
def putU16 (value : Nat) : Bytes := [UInt8.ofNat (value / 256), UInt8.ofNat value]

/-- `put_u24` -/
def putU24 (value : Nat) : Bytes := UInt8.ofNat (value / 65536) :: putU16 value

/-! ## Primitives -/

/-- The cryptographic primitives and the certificate parser. -/
structure Crypto (Cert RsaKey : Type) where
  /-- `sha256_digest` -/
  sha256 : Bytes → Bytes
  /-- `hmac_digest` with SHA-256: key and data. -/
  hmac : Bytes → Bytes → Bytes
  /-- `hkdf_extract`: salt and input key. -/
  hkdfExtract : Bytes → Bytes → Bytes
  /-- `hkdf_expand`: key, info and length. -/
  hkdfExpand : Bytes → Bytes → Nat → Bytes
  /-- `x25519_dh`: private and peer's public key, none on failure. -/
  x25519 : Bytes → Bytes → Option Bytes
  /-- Encryption under a cipher suite: key, nonce, additional data and plaintext give the ciphertext
  and the tag. -/
  encrypt : Nat → Bytes → Bytes → Bytes → Bytes → Bytes × Bytes
  /-- Decryption: key, nonce, additional data, ciphertext and tag, none when the tag is wrong. -/
  decrypt : Nat → Bytes → Bytes → Bytes → Bytes → Bytes → Option Bytes
  /-- `x509_parse`, none on failure. -/
  x509Parse : Bytes → Option Cert
  /-- What a failed `x509_parse` leaves in its result. -/
  x509Residue : Bytes → Cert
  /-- `x509_is_expired` -/
  x509IsExpired : Cert → Int → Bool
  /-- `x509_get_pubkey`: the SubjectPublicKeyInfo inside the certificate's buffer, empty when the
  certificate has none. -/
  x509Pubkey : Cert → Region
  /-- `rsa_pubkey_import_der`: the key at an offset of a buffer with a length. -/
  rsaImport : Region → Nat → Nat → Option RsaKey
  /-- `rsa_verify_pss`: key, signature and content. -/
  rsaVerifyPss : RsaKey → Bytes → Bytes → Bool
  /-- `ecdsa_verify`: point, content and the two numbers of the signature. -/
  ecdsaVerify : Bytes → Bytes → Bytes → Bytes → Bool
  /-- `cookbook_ed25519_verify`: signature, content and key. -/
  ed25519Verify : Bytes → Bytes → Bytes → Bool

/-! ## Content types and suites -/

/-- `TLS_CHANGE_CIPHER` -/
def tlsChangeCipher : UInt8 := 20
/-- `TLS_ALERT` -/
def tlsAlert : UInt8 := 21
/-- `TLS_HANDSHAKE` -/
def tlsHandshake : UInt8 := 22
/-- `TLS_APPLICATION_DATA` -/
def tlsApplicationData : UInt8 := 23
/-- `TLS_AES_128_GCM_SHA256` -/
def tlsAes128GcmSha256 : Nat := 0x1301
/-- `TLS_CHACHA20_POLY1305_SHA256` -/
def tlsChacha20Poly1305Sha256 : Nat := 0x1303
/-- `TLS_RECORD_MAX` -/
def tlsRecordMax : Nat := 16384

/-! ## Protection -/

/-- The keys of one direction. -/
structure Direction where
  /-- The traffic key. -/
  key : Bytes
  /-- The initialization vector. -/
  iv : Bytes
  /-- The number of records protected so far. -/
  seq : Nat

/-- `build_nonce`: the last eight bytes of the vector are combined with the record number. -/
def buildNonce (iv : Bytes) (seq : Nat) : Bytes :=
  (List.range 12).map fun index =>
    if index < 4 then iv.getD index 0
    else iv.getD index 0 ^^^ UInt8.ofNat (seq >>> (8 * (11 - index)))

variable {Cert RsaKey : Type} (crypto : Crypto Cert RsaKey)

/-- The header of a record. -/
def recordHeader (contentType : UInt8) (length : Nat) : Bytes :=
  contentType :: (putU16 0x0303 ++ putU16 length)

/-- `tls_send_record`: the bytes that are sent, and the direction behind them. -/
def tlsSendRecord (suite : Nat) (send : Direction) (contentType : UInt8) (data : Bytes)
    (encrypted : Bool) : Bytes × Direction :=
  if encrypted then
    let plain := data ++ [contentType]
    let aad := recordHeader tlsApplicationData (plain.length + 16)
    let sealed := crypto.encrypt suite send.key (buildNonce send.iv send.seq) aad plain
    (aad ++ sealed.1 ++ sealed.2, { send with seq := send.seq + 1 })
  else (recordHeader contentType data.length ++ data, send)

/-- A record as `tls_recv_record` leaves it. -/
structure Received where
  /-- The content type and the content, none on failure. -/
  record : Option (UInt8 × Bytes)
  /-- What is still unread on the socket. -/
  input : Bytes
  /-- The direction behind the record. -/
  recv : Direction

/-- The content type and the content of a decrypted record: padding is stripped from the end. -/
def innerContent (plain : Bytes) : Option (UInt8 × Bytes) :=
  match (plain.rdropWhile (· == 0)).getLast? with
  | none => none
  | some contentType => some (contentType, (plain.rdropWhile (· == 0)).dropLast)

/-- `tls_recv_record` on the unread bytes of a socket that is closed behind them. -/
def tlsRecvRecord (suite : Nat) (recv : Direction) (encrypted : Bool) (input : Bytes) : Received :=
  if input.length < 5 then ⟨none, [], recv⟩
  else
    let header := input.take 5
    let rest := input.drop 5
    let recLen := (header.getD 3 0).toNat * 256 + (header.getD 4 0).toNat
    if tlsRecordMax + 256 < recLen then ⟨none, rest, recv⟩
    else if rest.length < recLen then ⟨none, [], recv⟩
    else
      let body := rest.take recLen
      let contentType := header.getD 0 0
      if encrypted = false ∨ contentType ≠ tlsApplicationData then
        ⟨some (contentType, body), rest.drop recLen, recv⟩
      else if recLen < 17 then ⟨none, rest.drop recLen, recv⟩
      else
        let plain := crypto.decrypt suite recv.key (buildNonce recv.iv recv.seq) header
          (body.take (recLen - 16)) (body.drop (recLen - 16))
        ⟨plain.bind innerContent, rest.drop recLen, { recv with seq := recv.seq + 1 }⟩

/-- A received record used up its header at least. -/
theorem tlsRecvRecord_shrinks (suite : Nat) (recv : Direction) (encrypted : Bool) (input : Bytes) :
    (tlsRecvRecord crypto suite recv encrypted input).record ≠ none →
      (tlsRecvRecord crypto suite recv encrypted input).input.length < input.length := by
  simp only [tlsRecvRecord]
  split_ifs
  all_goals simp
  all_goals omega

/-- A record leaves no more on the socket than there was. -/
theorem tlsRecvRecord_input (suite : Nat) (recv : Direction) (encrypted : Bool) (input : Bytes) :
    (tlsRecvRecord crypto suite recv encrypted input).input.length ≤ input.length := by
  simp only [tlsRecvRecord]
  split_ifs
  all_goals simp

/-! ## Round trip -/

/-- Encryption is undone by decryption under the same key, nonce and additional data, and the
ciphertext is the plaintext's length and a tag. -/
structure Crypto.Seals : Prop where
  /-- Decryption gives the plaintext back. -/
  opens : ∀ suite key nonce aad plain,
    crypto.decrypt suite key nonce aad (crypto.encrypt suite key nonce aad plain).1
      (crypto.encrypt suite key nonce aad plain).2 = some plain
  /-- The ciphertext is as long as the plaintext. -/
  cipherLength : ∀ suite key nonce aad plain,
    (crypto.encrypt suite key nonce aad plain).1.length = plain.length
  /-- The tag has 16 bytes. -/
  tagLength : ∀ suite key nonce aad plain,
    (crypto.encrypt suite key nonce aad plain).2.length = 16

/-- The two bytes of a number are read back. -/
theorem u16_bytes {value : Nat} (small : value < 65536) :
    (UInt8.ofNat (value / 256)).toNat * 256 + (UInt8.ofNat value).toNat = value := by
  rw [UInt8.toNat_ofNat', UInt8.toNat_ofNat']
  omega

/-- The content of a plaintext behind which its type and padding stand. -/
theorem innerContent_padded {contentType : UInt8} (data : Bytes) (typed : contentType ≠ 0)
    (padding : Nat) :
    innerContent (data ++ contentType :: List.replicate padding 0) = some (contentType, data) := by
  have kept : (data ++ contentType :: List.replicate padding 0).rdropWhile (· == 0) =
      data ++ [contentType] := by
    induction padding with
    | zero => exact List.rdropWhile_concat_neg _ _ _ (by simpa using typed)
    | succ padding ih =>
      rw [List.replicate_succ', ← List.cons_append, ← List.append_assoc,
        List.rdropWhile_concat_pos _ _ _ (by simp)]
      exact ih
  simp only [innerContent, kept, List.getLast?_concat, List.dropLast_concat]

/-- The content of a plaintext behind which nothing but its type stands. -/
theorem innerContent_typed {contentType : UInt8} (data : Bytes) (typed : contentType ≠ 0) :
    innerContent (data ++ [contentType]) = some (contentType, data) :=
  innerContent_padded data typed 0

variable {crypto}

/-- A record sent in the clear is received. -/
theorem tlsRecvRecord_clear (suite : Nat) (send recv : Direction) (contentType : UInt8)
    {data : Bytes} (fits : data.length ≤ tlsRecordMax + 256) (rest : Bytes) :
    tlsRecvRecord crypto suite recv false
      ((tlsSendRecord crypto suite send contentType data false).1 ++ rest) =
        ⟨some (contentType, data), rest, recv⟩ := by
  have shape : (tlsSendRecord crypto suite send contentType data false).1 ++ rest =
      contentType :: 3 :: 3 :: UInt8.ofNat (data.length / 256) :: UInt8.ofNat data.length ::
        (data ++ rest) := rfl
  have length : (UInt8.ofNat (data.length / 256)).toNat * 256 + (UInt8.ofNat data.length).toNat =
      data.length := u16_bytes (by simp only [tlsRecordMax] at fits; omega)
  rw [shape, tlsRecvRecord, if_neg (by simp only [List.length_cons]; omega)]
  simp only [List.take_succ_cons, List.take_zero, List.drop_succ_cons, List.drop_zero,
    List.getD_cons_succ, List.getD_cons_zero, length]
  rw [if_neg (by omega), if_neg (by simp), if_pos (.inl trivial), List.take_left, List.drop_left]

/-- An encrypted record around a plaintext. -/
def protectRecord (crypto : Crypto Cert RsaKey) (suite : Nat) (keys : Direction) (plain : Bytes) :
    Bytes :=
  let aad := recordHeader tlsApplicationData (plain.length + 16)
  let sealed := crypto.encrypt suite keys.key (buildNonce keys.iv keys.seq) aad plain
  aad ++ sealed.1 ++ sealed.2

/-- A record around a plaintext is its header, the ciphertext and the tag. -/
theorem protectRecord_length (seals : crypto.Seals) (suite : Nat) (keys : Direction)
    (plain : Bytes) : (protectRecord crypto suite keys plain).length = plain.length + 21 := by
  have header : (recordHeader tlsApplicationData (plain.length + 16)).length = 5 := rfl
  simp only [protectRecord, List.length_append, header, seals.cipherLength, seals.tagLength]
  omega

/-- The keys of a direction behind a record. -/
def Direction.next (keys : Direction) : Direction := { keys with seq := keys.seq + 1 }

/-- An encrypted record is received, decrypted, under the keys of its sender. -/
theorem tlsRecvRecord_protected (seals : crypto.Seals) (suite : Nat) (keys : Direction)
    (plain : Bytes) (nonempty : 0 < plain.length) (fits : plain.length + 16 ≤ tlsRecordMax + 256)
    (rest : Bytes) :
    tlsRecvRecord crypto suite keys true (protectRecord crypto suite keys plain ++ rest) =
      ⟨innerContent plain, rest, keys.next⟩ := by
  generalize sealing : crypto.encrypt suite keys.key (buildNonce keys.iv keys.seq)
    (recordHeader tlsApplicationData (plain.length + 16)) plain = sealed
  have cipherLength : sealed.1.length = plain.length := by rw [← sealing, seals.cipherLength]
  have tagLength : sealed.2.length = 16 := by rw [← sealing, seals.tagLength]
  have opens := seals.opens suite keys.key (buildNonce keys.iv keys.seq)
    (recordHeader tlsApplicationData (plain.length + 16)) plain
  rw [sealing] at opens
  have shape : protectRecord crypto suite keys plain ++ rest =
      recordHeader tlsApplicationData (plain.length + 16) ++ (sealed.1 ++ sealed.2 ++ rest) := by
    simp only [protectRecord, sealing, List.append_assoc]
  have header : (recordHeader tlsApplicationData (plain.length + 16)).length = 5 := rfl
  have length : ((recordHeader tlsApplicationData (plain.length + 16)).getD 3 0).toNat * 256 +
      ((recordHeader tlsApplicationData (plain.length + 16)).getD 4 0).toNat =
        plain.length + 16 := u16_bytes (by simp only [tlsRecordMax] at fits; omega)
  have bodyLength : (sealed.1 ++ sealed.2).length = plain.length + 16 := by
    rw [List.length_append, cipherLength, tagLength]
  rw [shape, tlsRecvRecord, if_neg (by rw [List.length_append, header]; omega)]
  simp only [List.take_left' header, List.drop_left' header, length]
  rw [if_neg (by omega), if_neg (by rw [List.length_append, bodyLength]; omega),
    if_neg (by simp [recordHeader]), if_neg (by omega), List.take_left' bodyLength,
    List.drop_left' bodyLength, Nat.add_sub_cancel plain.length 16,
    List.take_left' cipherLength, List.drop_left' cipherLength, opens]
  rfl

/-- A record that the client sends is received under the same keys. -/
theorem tlsRecvRecord_sealed (seals : crypto.Seals) (suite : Nat) (keys : Direction)
    (contentType : UInt8) (typed : contentType ≠ 0) {data : Bytes}
    (fits : data.length + 17 ≤ tlsRecordMax + 256) (rest : Bytes) :
    tlsRecvRecord crypto suite keys true
      ((tlsSendRecord crypto suite keys contentType data true).1 ++ rest) =
        ⟨some (contentType, data), rest, keys.next⟩ := by
  have sent : (tlsSendRecord crypto suite keys contentType data true).1 =
      protectRecord crypto suite keys (data ++ [contentType]) := rfl
  have length : (data ++ [contentType]).length = data.length + 1 := by simp
  have received := tlsRecvRecord_protected seals suite keys (data ++ [contentType])
    (by omega) (by omega) rest
  rw [sent, received, innerContent_typed data typed]

/-! ## Primitives that work -/

/-- Primitives without any secrecy: the ciphertext is the plaintext. -/
def loopback : Crypto Unit Unit where
  sha256 _ := List.replicate 32 0
  hmac _ _ := List.replicate 32 0
  hkdfExtract _ _ := List.replicate 32 0
  hkdfExpand _ _ length := List.replicate length 0
  x25519 _ _ := some (List.replicate 32 0)
  encrypt _ _ _ _ plain := (plain, List.replicate 16 0)
  decrypt _ _ _ _ cipher _ := some cipher
  x509Parse _ := some ()
  x509Residue _ := ()
  x509IsExpired _ _ := false
  x509Pubkey _ := ⟨[], fun _ => 0⟩
  rsaImport _ _ _ := none
  rsaVerifyPss _ _ _ := false
  ecdsaVerify _ _ _ _ := false
  ed25519Verify _ _ _ := false

/-- They seal. -/
theorem loopback_seals : loopback.Seals where
  opens _ _ _ _ _ := rfl
  cipherLength _ _ _ _ _ := rfl
  tagLength _ _ _ _ _ := rfl

end Cookbook.Tls
