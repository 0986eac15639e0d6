import Cookbook.Library.Crc
import Cookbook.Library.Digits

/-!
# Compressed responses

`cookbook_gzip_compress` puts the deflated data between the fixed header of a gzip member and its
trailer: the CRC-32 of the data, taken from a table, and the length. How data are deflated is left to the
caller; a decoder of gzip members gets the data back with any inflater that undoes it.
-/
namespace Cookbook.Http

open Library.Text Library.Digits

/-! ## The writer -/

/-- One turn of the loop over the bits: `c = (c >> 1) ^ (c & 1 ? 0xEDB88320u : 0)`. -/
def crc32Shift (c : BitVec 32) : BitVec 32 :=
  (c >>> 1) ^^^ (if c &&& 1#32 ≠ 0 then 0xEDB88320#32 else 0)

/-- `crc32_init_table` -/
def crc32Table : List (BitVec 32) :=
  (List.range 256).map fun i => (List.range 8).foldl (fun c _ => crc32Shift c) (BitVec.ofNat 32 i)

/-- `crc32_compute` -/
def crc32Compute (data : Bytes) : BitVec 32 :=
  data.foldl
      (fun crc byte =>
        crc32Table.getD ((crc ^^^ byte.toBitVec.setWidth 32) &&& 0xFF#32).toNat 0 ^^^ (crc >>> 8))
      0xFFFFFFFF#32 ^^^
    0xFFFFFFFF#32

/-- A number of 32 bits, its lowest byte first. -/
def wordBytes (number : Nat) : Bytes :=
  [0, 8, 16, 24].map fun shift => UInt8.ofNat ((number >>> shift) % 256)

/-- The header of a member: identification, method, no flags, no time, and an unknown system. -/
def gzipHeader : Bytes := [0x1F, 0x8B, 0x08, 0x00, 0x00, 0x00, 0x00, 0x00, 0x00, 0xFF]

/-- `cookbook_gzip_compress` -/
def gzipCompress (deflate : Bytes → Option Bytes) (data : Bytes) : Option Bytes :=
  if data = [] then none
  else do
    let deflated ← deflate data
    some (gzipHeader ++ deflated ++ wordBytes (crc32Compute data).toNat ++
      wordBytes (data.length % 4294967296))

/-! ## The format -/

/-- The polynomial of IEEE 802.3. -/
def ieeePolynomial : BitVec 32 := 0x04C11DB7#32

/-- A field of the header that ends with a zero. -/
def skipText (text : Bytes) : Option Bytes :=
  match text.dropWhile (· != 0) with
  | [] => none
  | _ :: rest => some rest

/-- A field of the header behind its length. -/
def skipExtra : Bytes → Option Bytes
  | low :: high :: rest =>
    if rest.length < littleEndian [low, high] then none
    else some (rest.drop (littleEndian [low, high]))
  | _ => none

/-- The check of the header. -/
def skipCheck : Bytes → Option Bytes
  | _ :: _ :: rest => some rest
  | _ => none

/-- A field that a flag announces. -/
def optionalField (flags : UInt8) (flag : Nat) (skip : Bytes → Option Bytes) (text : Bytes) : Option Bytes :=
  if flags.toNat.testBit flag then skip text else some text

/-- The header of a member: the data begin behind it. -/
def skipHeader : Bytes → Option Bytes
  | 0x1F :: 0x8B :: 0x08 :: flags :: _ :: _ :: _ :: _ :: _ :: _ :: rest =>
    if 0x20 ≤ flags then none
    else do
      let rest ← optionalField flags 2 skipExtra rest
      let rest ← optionalField flags 3 skipText rest
      let rest ← optionalField flags 4 skipText rest
      optionalField flags 1 skipCheck rest
  | _ => none

/-- A number of 32 bits. -/
def readWord : Bytes → Option (Nat × Bytes)
  | a :: b :: c :: d :: rest => some (littleEndian [a, b, c, d], rest)
  | _ => none

/-- A decoder of one member: the data, when the check and the length are theirs, and what stands behind
the member. -/
def gunzip (inflate : Bytes → Option (Bytes × Bytes)) (text : Bytes) : Option (Bytes × Bytes) := do
  let rest ← skipHeader text
  let (data, rest) ← inflate rest
  let (check, rest) ← readWord rest
  let (size, rest) ← readWord rest
  if check = (Library.Crc.checksum ieeePolynomial data).toNat ∧ size = data.length % 4294967296 then
    some (data, rest)
  else none

/-! ## The check -/

/-- The constant of the program is the reversed polynomial. -/
theorem ieeePolynomial_reverse : ieeePolynomial.reverse = 0xEDB88320#32 := by decide +kernel

/-- The table has the registers of the reversed polynomial. -/
theorem crc32Table_isTable : Library.Crc.IsTable ieeePolynomial.reverse crc32Table := by
  intro i small
  rw [ieeePolynomial_reverse, crc32Table, List.getD_eq_getElem?_getD, List.getElem?_map,
    List.getElem?_range small]
  rfl

/-- The check from the table is that of the standard. -/
theorem crc32Compute_eq (data : Bytes) :
    crc32Compute data = Library.Crc.checksum ieeePolynomial data := by
  have bytes : crc32Compute data =
      data.foldl (Library.Crc.takeByte crc32Table) (BitVec.allOnes 32) ^^^ BitVec.allOnes 32 := rfl
  rw [← Library.Crc.foldl_takeByte crc32Table_isTable, bytes, BitVec.xor_allOnes]

/-! ## The member -/

/-- A number of 32 bits is read as itself. -/
theorem readWord_bytes {number : Nat} (small : number < 4294967296) (rest : Bytes) :
    readWord (wordBytes number ++ rest) = some (number, rest) := by
  have value : littleEndian (wordBytes number) = number := by
    simp only [wordBytes, List.map_cons, List.map_nil, littleEndian_cons, littleEndian_nil,
      UInt8.toNat_ofNat', Nat.shiftRight_eq_div_pow]
    omega
  have read : readWord (wordBytes number ++ rest) = some (littleEndian (wordBytes number), rest) := rfl
  rw [read, value]

/-- The fixed header is skipped. -/
theorem skipHeader_fixed (rest : Bytes) : skipHeader (gzipHeader ++ rest) = some rest := rfl

/-- What `cookbook_gzip_compress` returns is a member: the fixed header, the deflated data, the check of
the standard and the length. A decoder gets the data back, whatever stands behind the member. -/
theorem gzipCompress_member (deflate : Bytes → Option Bytes) (inflate : Bytes → Option (Bytes × Bytes))
    (undone : ∀ data stream, deflate data = some stream →
      ∀ rest, inflate (stream ++ rest) = some (data, rest))
    (data out : Bytes) (done : gzipCompress deflate data = some out) :
    ∃ stream, deflate data = some stream ∧
      out = gzipHeader ++ stream ++
        wordBytes (Library.Crc.checksum ieeePolynomial data).toNat ++
        wordBytes (data.length % 4294967296) ∧
      crc32Compute data = Library.Crc.checksum ieeePolynomial data ∧
      ∀ rest, gunzip inflate (out ++ rest) = some (data, rest) := by
  rw [gzipCompress] at done
  split at done
  · cases done
  · obtain ⟨stream, deflated, same⟩ := Option.bind_eq_some_iff.mp done
    rw [crc32Compute_eq] at same
    obtain rfl := Option.some.inj same
    refine ⟨stream, deflated, rfl, crc32Compute_eq data, fun rest => ?_⟩
    simp only [List.append_assoc]
    rw [gunzip, skipHeader_fixed]
    refine Option.bind_eq_some_iff.mpr ⟨_, rfl, ?_⟩
    refine Option.bind_eq_some_iff.mpr ⟨_, undone data stream deflated _, ?_⟩
    refine Option.bind_eq_some_iff.mpr ⟨_, readWord_bytes (BitVec.isLt _) _, ?_⟩
    refine Option.bind_eq_some_iff.mpr ⟨_, readWord_bytes (Nat.mod_lt _ (by decide)) rest, ?_⟩
    exact if_pos ⟨rfl, rfl⟩

/-! ## A response -/

/-- A compressor with the stream of one text. -/
def recordedDeflate (text stream data : Bytes) : Option Bytes :=
  if data = text then some stream else none

/-- An inflater with the text of one stream, and what stands behind the stream. -/
def recordedInflate (text stream input : Bytes) : Option (Bytes × Bytes) :=
  if input.take stream.length = stream then some (text, input.drop stream.length) else none

/-- They undo each other. -/
theorem recorded_undone {text stream data deflated : Bytes}
    (done : recordedDeflate text stream data = some deflated) (rest : Bytes) :
    recordedInflate text stream (deflated ++ rest) = some (data, rest) := by
  rw [recordedDeflate] at done
  split at done
  · rename_i same
    obtain rfl := Option.some.inj done
    rw [recordedInflate, List.take_left, if_pos rfl, List.drop_left, same]
  · cases done

/-- A release in a listing. -/
def releaseObject (minor : String) : Bytes :=
  ascii "\x7b\"version\":\"1." ++ ascii minor ++
    ascii ".0\",\"snapshot\":false,\"triples\":[\"noarch\"]\x7d"

/-- The response with five releases. -/
def releasesResponse : Bytes :=
  ascii "\x7b\"versions\":[" ++
    [comma].intercalate (["4", "3", "2", "1", "0"].map releaseObject) ++ ascii "]\x7d\n"

/-- Its stream from `deflate_compress`: one block of fixed codes, in which four of the releases are
references to the one in front. -/
def releasesStream : Bytes :=
  [0xAB, 0x56, 0x2A, 0x4B, 0x2D, 0x2A, 0xCE, 0xCC, 0xCF, 0x2B, 0x56, 0xB2, 0x8A, 0x86, 0x73, 0x94,
    0xAC, 0x94, 0x0C, 0xF5, 0x4C, 0xF4, 0x0C, 0x94, 0x74, 0x94, 0x8A, 0xF3, 0x12, 0x0B, 0x8A, 0x33,
    0xF2, 0x4B, 0x94, 0xAC, 0xD2, 0x12, 0x73, 0x8A, 0x53, 0x75, 0x94, 0x4A, 0x8A, 0x32, 0x0B, 0x72,
    0x52, 0x41, 0xCA, 0x95, 0xF2, 0xF2, 0x13, 0x8B, 0x92, 0x33, 0x94, 0x62, 0x6B, 0x75, 0x50, 0x75,
    0x1A, 0x93, 0xAD, 0xD3, 0x88, 0x6C, 0x9D, 0x86, 0x64, 0xEB, 0x34, 0x20, 0x5E, 0x67, 0x6C, 0x2D,
    0x17, 0x00]

/-- The response is compressed to a third of its length and read back. -/
theorem gzipCompress_member_releases :
    releasesResponse.length = 305 ∧
      ∃ out, gzipCompress (recordedDeflate releasesResponse releasesStream) releasesResponse = some out ∧
        out.length = 100 ∧
        gunzip (recordedInflate releasesResponse releasesStream) out = some (releasesResponse, []) := by
  refine ⟨by decide +kernel, ?_⟩
  obtain ⟨out, done⟩ := Option.isSome_iff_exists.mp (by decide +kernel :
    (gzipCompress (recordedDeflate releasesResponse releasesStream) releasesResponse).isSome = true)
  obtain ⟨stream, deflated, member, -, back⟩ :=
    gzipCompress_member (recordedDeflate releasesResponse releasesStream)
      (recordedInflate releasesResponse releasesStream) (fun _ _ done => recorded_undone done)
      releasesResponse out done
  refine ⟨out, done, ?_, by simpa using back []⟩
  rw [recordedDeflate, if_pos rfl] at deflated
  rw [member, ← Option.some.inj deflated]
  rfl

end Cookbook.Http
