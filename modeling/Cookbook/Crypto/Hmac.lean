import Cookbook.Crypto.Sha256

/-!
# HMAC-SHA-256

The keyed code with which requests to the object store are signed comes from the cryptographic library
next to the program. The library has a SHA-256 of its own, whose transformation is the program's and whose
update copies into a partly filled buffer before it asks whether this is full. The code is that of the
standard over the standard's digest.
-/
namespace Cookbook.Crypto.Apennines

open Library.Text Library.BlockHash Library.Sha2

/-! ## Contexts -/

/-- `sha256_init`, which leaves the buffer as it was. -/
def sha256Init (buf : Bytes) : Sha256Ctx where
  state := ⟨0x6a09e667, 0xbb67ae85, 0x3c6ef372, 0xa54ff53a, 0x510e527f, 0x9b05688c, 0x1f83d9ab,
    0x5be0cd19⟩
  count := 0
  buf := buf

/-- `sha256_update` -/
def sha256Update (ctx : Sha256Ctx) (data : Bytes) : Sha256Ctx :=
  let bufUsed := (ctx.count % 64).toNat
  let count := ctx.count + UInt64.ofNat data.length
  if 0 < bufUsed then
    let room := 64 - bufUsed
    let copy := if data.length < room then data.length else room
    let buf := write ctx.buf bufUsed (data.take copy)
    if bufUsed + copy < 64 then ⟨ctx.state, count, buf⟩
    else
      let rest := absorbRest sha256Transform 64 0 (sha256Transform ctx.state buf) buf (data.drop copy)
      ⟨rest.1, count, rest.2⟩
  else
    let rest := absorbRest sha256Transform 64 0 ctx.state ctx.buf data
    ⟨rest.1, count, rest.2⟩

/-- `store_be64` -/
def storeBe64 (v : UInt64) : Bytes :=
  [(v >>> 56).toUInt8, (v >>> 48).toUInt8, (v >>> 40).toUInt8, (v >>> 32).toUInt8, (v >>> 24).toUInt8,
    (v >>> 16).toUInt8, (v >>> 8).toUInt8, v.toUInt8]

/-- `sha256_final` -/
def sha256Final (ctx : Sha256Ctx) : Bytes :=
  storeWords256 (finish sha256Transform 64 (ctx.count % 64).toNat (storeBe64 (ctx.count * 8)) ctx)

/-- `sha256_digest`. What the buffer of the context holds before is of no consequence. -/
def sha256Digest (data : Bytes) : Bytes :=
  sha256Final (sha256Update (sha256Init (List.replicate 64 0)) data)

/-! ## Keyed contexts -/

/-- `hmac_ctx` of SHA-256 -/
structure HmacCtx where
  /-- `inner` -/
  inner : Sha256Ctx
  /-- `outer` -/
  outer : Sha256Ctx

/-- `hmac_create` -/
def hmacCreate (key : Bytes) : HmacCtx :=
  let short := if 64 < key.length then sha256Digest key else key
  let block := short ++ List.replicate (64 - short.length) 0
  let fresh := sha256Init (List.replicate 64 0)
  ⟨sha256Update fresh (block.map (· ^^^ 0x36)), sha256Update fresh (block.map (· ^^^ 0x5C))⟩

/-- `hmac_update` -/
def hmacUpdate (ctx : HmacCtx) (data : Bytes) : HmacCtx :=
  { ctx with inner := sha256Update ctx.inner data }

/-- `hmac_final` -/
def hmacFinal (ctx : HmacCtx) : Bytes :=
  sha256Final (sha256Update ctx.outer (sha256Final ctx.inner))

/-! ## The digest of the library -/

/-- Both ways to ask for the place in the buffer agree. -/
theorem place_eq (count : UInt64) : (count % 64).toNat = (count &&& 63).toNat := by
  rw [idx256, UInt64.toNat_mod]
  rfl

/-- The update does what the program's does. -/
theorem sha256Update_eq (ctx : Sha256Ctx) (data : Bytes) :
    sha256Update ctx data = Crypto.sha256Update ctx data := by
  have below : (ctx.count &&& 63).toNat < 64 := by
    rw [idx256]
    exact Nat.mod_lt _ (by decide)
  simp only [sha256Update, Crypto.sha256Update, place_eq]
  generalize (ctx.count &&& 63).toNat = position at below
  by_cases aligned : position = 0
  · rw [if_neg (by omega), if_neg (by omega)]
  · rw [if_pos (by omega), if_pos aligned]
    by_cases short : data.length < 64 - position
    · rw [if_pos short, if_pos short, if_pos (by omega), List.take_length]
    · rw [if_neg short, if_neg short, if_neg (by omega)]

/-- So does the end. -/
theorem sha256Final_eq (ctx : Sha256Ctx) : sha256Final ctx = Crypto.sha256Final ctx := by
  rw [sha256Final, place_eq]
  rfl

/-- In pieces of any lengths the digest is that of the standard. -/
theorem sha256Final_pieces (pieces : List Bytes) (small : pieces.flatten.length < 2 ^ 61) :
    sha256Final (pieces.foldl sha256Update (sha256Init (List.replicate 64 0))) =
      Library.Sha2.sha256.digest pieces.flatten := by
  have updates : sha256Update = Crypto.sha256Update :=
    funext fun ctx => funext fun data => sha256Update_eq ctx data
  rw [updates, sha256Final_eq]
  exact sha256Final_holds (sha256_holds (List.replicate 64 0) List.length_replicate pieces) small

/-- A digest has 32 bytes. -/
theorem sha256Final_length (ctx : Sha256Ctx) : (sha256Final ctx).length = 32 := by
  rw [sha256Final_eq]
  exact Crypto.sha256Final_length ctx

/-! ## The keyed code -/

/-- The code has 32 bytes. -/
theorem hmacFinal_length (ctx : HmacCtx) : (hmacFinal ctx).length = 32 := sha256Final_length _

/-- The code is that of the standard, for keys and messages whose bits can be counted. -/
theorem hmacFinal_eq (key data : Bytes) (short : key.length < 2 ^ 61)
    (small : data.length + 64 < 2 ^ 61) :
    hmacFinal (hmacUpdate (hmacCreate key) data) =
      hmac Library.Sha2.sha256.digest 64 key data := by
  have digest (message : Bytes) (fits : message.length < 2 ^ 61) :
      sha256Digest message = Library.Sha2.sha256.digest message := by
    have whole := sha256Final_pieces [message] (by simpa using fits)
    rwa [List.flatten_singleton] at whole
  have pair (front back : Bytes) (fits : front.length + back.length < 2 ^ 61) :
      sha256Final (sha256Update (sha256Update (sha256Init (List.replicate 64 0)) front) back) =
        Library.Sha2.sha256.digest (front ++ back) := by
    have whole := sha256Final_pieces [front, back] (by simpa using fits)
    rwa [List.flatten_cons, List.flatten_singleton] at whole
  have width (message : Bytes) (fits : message.length < 2 ^ 61) :
      (Library.Sha2.sha256.digest message).length = 32 := by
    rw [← digest message fits]
    exact sha256Final_length _
  have block : (keyBlock Library.Sha2.sha256.digest 64 key).length = 64 :=
    keyBlock_length key (by rw [width key short]; decide)
  have created : hmacCreate key =
      ⟨sha256Update (sha256Init (List.replicate 64 0))
        ((keyBlock Library.Sha2.sha256.digest 64 key).map (· ^^^ 0x36)),
      sha256Update (sha256Init (List.replicate 64 0))
        ((keyBlock Library.Sha2.sha256.digest 64 key).map (· ^^^ 0x5C))⟩ := by
    rw [hmacCreate, digest key short]
    rfl
  have masked (mask : UInt8) :
      ((keyBlock Library.Sha2.sha256.digest 64 key).map (· ^^^ mask)).length = 64 := by
    rw [List.length_map, block]
  have inner := pair _ data (by rw [masked 0x36]; omega)
  have inside := width _ (show (((keyBlock Library.Sha2.sha256.digest 64 key).map (· ^^^ 0x36)) ++
    data).length < 2 ^ 61 by rw [List.length_append, masked 0x36]; omega)
  rw [hmacFinal, hmacUpdate, created, inner, pair _ _ (by rw [masked 0x5C, inside]; decide), hmac]

end Cookbook.Crypto.Apennines
