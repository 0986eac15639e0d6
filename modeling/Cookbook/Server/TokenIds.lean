import Cookbook.Auth.Jwt
import Cookbook.Library.Congruential
import Cookbook.Server.Machine
import Mathlib.LinearAlgebra.Matrix.Notation

/-!
# Token identifiers

An identifier is a truncated congruential sequence, seeded with the time, the counter and the
address of the caller's buffer. It shows the low forty-one bits of its seed and no others, so two
calls collide exactly where these bits of the time and the scaled counter do, and a revocation then
reaches both tokens.
-/
namespace Cookbook.Server

open Library.Text Library.Congruential Auth

/-! ## What an identifier shows -/

/-- The multiplier of the generator. -/
def jtiMultiplier : UInt64 := 6364136223846793005

/-- The increment of the generator. -/
def jtiIncrement : UInt64 := 1442695040888963407

/-- The state of the generator behind some steps. -/
def jtiState (steps seed : Nat) : Nat := state jtiMultiplier.toNat jtiIncrement.toNat steps seed

/-- No step leaves the seed. -/
theorem jtiState_zero (seed : Nat) : jtiState 0 seed = seed := rfl

/-- The byte that a state shows: eight bits above the lowest thirty-three. -/
def jtiByte (state : Nat) : Nat := shown 8589934592 256 state

/-- Seven powers of the multiplier have relations short enough for windows of eight bits. -/
def jtiRelations :
    Relations jtiMultiplier.toNat ((8589934592 * 256 : Nat) : ℤ) (8589934592 : Nat) 6 where
  rows := !![-3, -19, -22, -25, 0, -35, 4;
    12, 49, -11, 7, 4, -5, -12;
    13, -4, -15, 13, 8, 34, -45;
    -1, 20, 47, -18, -7, 0, -33;
    -29, 9, 6, 28, 43, 8, -37;
    -47, 18, -22, 11, -27, 14, 1;
    -2, -41, 4, 44, -17, -46, -2]
  weights := ![-9206955114, 16820424232, 14327214245, -5786545371, -19655829735, -25881709411,
    4471217881]
  scale := 2199023255552
  divides := by decide +kernel
  short := by decide +kernel
  nonzero := by decide
  isolates := by decide +kernel

/-- A draw takes one step and shows a byte of its state. -/
theorem jtiDigits_succ (count : Nat) (seed : UInt64) :
    jtiDigits (count + 1) seed =
      hexDigit (jtiByte (seed * jtiMultiplier + jtiIncrement).toNat / 16) ::
        hexDigit (jtiByte (seed * jtiMultiplier + jtiIncrement).toNat % 16) ::
        jtiDigits count (seed * jtiMultiplier + jtiIncrement) := by
  have byte (word : UInt64) : (word >>> 33).toUInt8.toNat = jtiByte word.toNat := by
    rw [UInt64.toNat_toUInt8, UInt64.toNat_shiftRight, Nat.shiftRight_eq_div_pow]
    rfl
  rw [← byte]
  rfl

/-- Different values below sixteen have different digits. -/
theorem hexDigit_injective : ∀ a < 16, ∀ b < 16, hexDigit a = hexDigit b → a = b := by
  decide +kernel

/-- Two digits show a byte. -/
theorem hexDigits_eq_iff {a b : Nat} (aSmall : a < 256) (bSmall : b < 256) :
    hexDigit (a / 16) = hexDigit (b / 16) ∧ hexDigit (a % 16) = hexDigit (b % 16) ↔ a = b := by
  constructor
  · rintro ⟨high, low⟩
    have highs := hexDigit_injective (a / 16) (by omega) (b / 16) (by omega) high
    have lows := hexDigit_injective (a % 16) (by omega) (b % 16) (by omega) low
    omega
  · rintro rfl
    exact ⟨rfl, rfl⟩

/-- The digits of two seeds agree exactly where the bytes of their states do. -/
theorem jtiDigits_eq_iff (count : Nat) (x y : UInt64) :
    jtiDigits count x = jtiDigits count y ↔ ∀ steps < count,
      jtiByte (jtiState (steps + 1) x.toNat) = jtiByte (jtiState (steps + 1) y.toNat) := by
  induction count generalizing x y with
  | zero => simp [jtiDigits]
  | succ count ih =>
    have words (seed : UInt64) (steps : Nat) :
        jtiByte (jtiState steps (seed * jtiMultiplier + jtiIncrement).toNat) =
          jtiByte (jtiState (steps + 1) seed.toNat) :=
      shown_words jtiMultiplier jtiIncrement (by decide +kernel) steps seed
    have start (seed : UInt64) : jtiByte (seed * jtiMultiplier + jtiIncrement).toNat =
        jtiByte (jtiState 1 seed.toNat) := by rw [← words seed 0, jtiState_zero]
    have small (value : Nat) : jtiByte value < 256 := Nat.mod_lt _ (by decide)
    simp only [jtiDigits_succ, List.cons.injEq, ih, words, start, ← and_assoc,
      hexDigits_eq_iff (small _) (small _)]
    constructor
    · rintro ⟨zero, later⟩ (_ | steps) below
      · exact zero
      · exact later steps (by omega)
    · intro all
      exact ⟨all 0 (by omega), fun steps below => all (steps + 1) (by omega)⟩

/-- Sixteen bytes show the low forty-one bits of the seed. -/
theorem jtiDigits_sixteen (x y : UInt64) :
    jtiDigits 16 x = jtiDigits 16 y ↔ x.toNat % 2199023255552 = y.toNat % 2199023255552 := by
  rw [jtiDigits_eq_iff]
  exact shown_eq_iff jtiIncrement.toNat jtiRelations (by decide +kernel) (by decide) (by decide) _ _

/-! ## Calls -/

/-- One call of `generate_jti`. -/
structure JtiCall where
  /-- The time. -/
  time : UInt64
  /-- The value of the counter. -/
  counter : UInt64

/-- What a call puts into the seed next to the address. -/
def JtiCall.mixed (call : JtiCall) : UInt64 := call.time ^^^ (call.counter * 2654435761)

/-- The identifier of a call. -/
def JtiCall.identifier (address : UInt64) (call : JtiCall) : Bytes :=
  generateJti call.time call.counter address

/-- The low forty-one bits of the time and the scaled counter. -/
def JtiCall.low (call : JtiCall) : Nat := call.mixed.toNat % 2199023255552

/-- With one address two calls collide exactly where their low bits do. -/
theorem JtiCall.identifier_eq_iff (address : UInt64) (a b : JtiCall) :
    a.identifier address = b.identifier address ↔ a.low = b.low := by
  have low (call : JtiCall) : (call.mixed ^^^ address).toNat % 2199023255552 =
      call.low ^^^ (address.toNat % 2199023255552) := by
    rw [UInt64.toNat_xor]
    exact Nat.xor_mod_two_pow (n := 41)
  rw [identifier, identifier, generateJti, generateJti]
  refine (jtiDigits_sixteen _ _).trans ?_
  rw [← mixed, ← mixed, low, low]
  constructor
  · intro same
    have cancelled := congrArg (· ^^^ address.toNat % 2199023255552) same
    simpa only [Nat.xor_assoc, Nat.xor_self, Nat.xor_zero] using cancelled
  · intro same
    rw [same]

/-- The identifiers are as long as the buffer of the list can hold. -/
theorem JtiCall.identifier_length (address : UInt64) (call : JtiCall) :
    (call.identifier address).length = 32 := by
  have drawn (count : Nat) (seed : UInt64) : (jtiDigits count seed).length = 2 * count := by
    induction count generalizing seed with
    | zero => rfl
    | succ count ih =>
      rw [jtiDigits, List.length_cons, List.length_cons, ih]
      omega
  exact drawn 16 _

/-! ## Runs -/

/-- The calls of one process, with one address for the buffer. -/
structure JtiRun where
  /-- The address of the caller's buffer. -/
  address : UInt64
  /-- The calls in their order. -/
  calls : List JtiCall
  counters : (calls.map (·.counter)).Nodup
  ordered : (calls.map (·.time)).Pairwise (· ≤ ·)
  small : ∀ call ∈ calls, call.time < 4294967296 ∧ call.counter < 4294967296

/-- The identifiers of a run. -/
def JtiRun.identifiers (run : JtiRun) : List Bytes :=
  run.calls.map (JtiCall.identifier run.address)

/-- `cookbook_revocation_check` -/
def revocationCheck (revoked : List (Bytes × Int)) (jti : Bytes) : Bool := revoked.any (·.1 == jti)

/-- Two identifiers differ, and revoking the first does not revoke the second. -/
def Separate (a b : Bytes) : Prop :=
  a ≠ b ∧ ∀ revoked now exp, revocationCheck revoked b = false →
    revocationCheck (addRevocation revoked now a exp).2 b = false

/-- Different identifiers that the list holds whole are separate. -/
theorem separate_of_ne {a b : Bytes} (short : a.length < 64) (different : a ≠ b) :
    Separate a b := by
  refine ⟨different, fun revoked now exp clear => ?_⟩
  have kept : revocationCheck (revocationPrune revoked now) b = false := by
    rw [revocationCheck, List.any_eq_false] at clear ⊢
    exact fun entry member => clear entry (List.mem_of_mem_filter member)
  rw [addRevocation]
  split
  · exact kept
  · split
    · exact kept
    · rw [revocationCheck, List.any_append, List.take_of_length_le (by omega)]
      rw [revocationCheck] at kept
      simp [kept, different]

/-- In a run all identifiers differ, and no revocation reaches another token, exactly when no two
calls agree in their low bits. -/
theorem identifiers_separate_iff (run : JtiRun) :
    run.identifiers.Pairwise (fun a b => Separate a b ∧ Separate b a) ↔
      run.calls.Pairwise fun a b => a.low ≠ b.low := by
  rw [JtiRun.identifiers, List.pairwise_map]
  refine List.Pairwise.iff fun a b => ?_
  have same := a.identifier_eq_iff run.address b
  constructor
  · intro separate equal
    exact separate.1.1 (same.mpr equal)
  · intro different
    have apart : a.identifier run.address ≠ b.identifier run.address :=
      fun equal => different (same.mp equal)
    exact ⟨separate_of_ne (by rw [JtiCall.identifier_length]; decide) apart,
      separate_of_ne (by rw [JtiCall.identifier_length]; decide) apart.symm⟩

/-- Two of some thousand tokens, issued six hours apart. -/
def crossingRun : JtiRun where
  address := 0x7FFC00000000
  calls := [⟨1879026569, 2735⟩, ⟨1879048192, 8534⟩]
  counters := by decide
  ordered := by decide
  small := by decide

/-- Both have one identifier. -/
theorem identifiers_collide :
    ¬ ∀ run : JtiRun, run.identifiers.Pairwise fun a b => Separate a b ∧ Separate b a := by
  intro separate
  have apart := (identifiers_separate_iff crossingRun).mp (separate crossingRun)
  have low : ¬ crossingRun.calls.Pairwise fun a b => a.low ≠ b.low := by decide +kernel
  exact low apart

end Cookbook.Server
