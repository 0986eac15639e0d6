import Cookbook.Library.Buffer
import Cookbook.Library.Form

/-!
# Client credentials

`cookbook_oidc_client_credentials` posts the client and its secret to the identity provider as a form. The
values are put into the form as they are, so a form with those values is posted only if they stand for
themselves in a form, and only if the whole form has its place in the buffer.
-/
namespace Cookbook.Auth

open Library.Text Library.Form

/-! ## The request -/

/-- What is posted: the buffer up to its terminator, and the length that is declared for it. -/
structure FormPost where
  /-- `token_url` -/
  url : Bytes
  /-- `body` -/
  body : Bytes
  /-- `body_len` -/
  bodyLen : Nat
  /-- The type of the document. -/
  contentType : Bytes

/-- The format of the form. -/
def credentialsForm (clientId clientSecret : Bytes) : Bytes :=
  ascii "grant_type=client_credentials&client_id=" ++ clientId ++ ascii "&client_secret=" ++ clientSecret

/-- The request of `cookbook_oidc_client_credentials`. -/
def clientCredentialsPost (issuer clientId clientSecret : Bytes) : FormPost where
  url := snprintf 512 (issuer ++ ascii "/oauth/token")
  body := snprintf 1024 (credentialsForm clientId clientSecret)
  bodyLen := (credentialsForm clientId clientSecret).length
  contentType := ascii "application/x-www-form-urlencoded"

/-- The three pairs that the provider is to find. -/
def credentialPairs (clientId clientSecret : Bytes) : List (Bytes × Bytes) :=
  [(ascii "grant_type", ascii "client_credentials"), (ascii "client_id", clientId),
    (ascii "client_secret", clientSecret)]

/-- The declared length is that of the form in the buffer, and the form has the pairs of the client. -/
def FormPost.Names (post : FormPost) (clientId clientSecret : Bytes) : Prop :=
  post.bodyLen = post.body.length ∧ pairs post.body = credentialPairs clientId clientSecret

/-- A text that stands for itself as a value of a form: no ampersand, no plus sign and no escape. -/
structure FormPlain (text : Bytes) : Prop where
  /-- It does not end early. -/
  whole : ampersand ∉ text
  /-- It has no sign for a space. -/
  spaceless : plus ∉ text
  /-- It has no escape. -/
  unescaped : EscapeFree text

/-! ## The pairs -/

/-- The part of a text in front of the first ampersand. -/
def valuePart (text : Bytes) : Bytes := text.takeWhile (· != ampersand)

/-- A text is what its first part stands for exactly if it stands for itself. -/
theorem decode_valuePart_iff (text : Bytes) : decodeText (valuePart text) = text ↔ FormPlain text := by
  constructor
  · intro same
    have short := decodeText_length (valuePart text)
    rw [same] at short
    have all : valuePart text = text := (List.takeWhile_prefix _).eq_of_length_le short
    have free : ampersand ∉ text := fun member => by
      rw [← all] at member
      have accepted := List.mem_takeWhile_imp member
      simp at accepted
    rw [all] at same
    obtain ⟨spaceless, unescaped⟩ := (decodeText_eq_iff text).mp same
    exact ⟨free, spaceless, unescaped⟩
  · rintro ⟨free, spaceless, unescaped⟩
    have all : valuePart text = text := List.takeWhile_eq_self_iff.mpr (accepts_of_notMem free)
    rw [all]
    exact (decodeText_eq_iff text).mpr ⟨spaceless, unescaped⟩

/-- The first pair of a document that begins with a name, and the rest. -/
theorem pairs_named {name : Bytes} (short : equals ∉ name) (whole : ampersand ∉ name) (text : Bytes) :
    ∃ more, pairs (name ++ equals :: text) = (decodeText name, decodeText (valuePart text)) :: more ∧
      (ampersand ∉ text → more = []) := by
  by_cases member : ampersand ∈ text
  · obtain ⟨front, rest, rfl, free⟩ := List.eq_append_cons_of_mem member
    have piece : ampersand ∉ name ++ equals :: front := by simp [whole, free]
    have document : name ++ equals :: (front ++ ampersand :: rest) =
        (name ++ equals :: front) ++ ampersand :: rest := by simp
    refine ⟨pairs rest, ?_, fun no => absurd member no⟩
    rw [document, pairs_cons piece (by simp), decodePair_equals short, valuePart, takeWhile_ne_stop free]
  · have piece : ampersand ∉ name ++ equals :: text := by simp [whole, member]
    have all : valuePart text = text := List.takeWhile_eq_self_iff.mpr (accepts_of_notMem member)
    exact ⟨[], by rw [pairs_single piece (by simp), decodePair_equals short, all], fun _ => rfl⟩

/-- Behind an ampersand nothing belongs to the first part. -/
theorem valuePart_append (text rest : Bytes) :
    valuePart (text ++ ampersand :: rest) = valuePart text := by
  by_cases member : ampersand ∈ text
  · obtain ⟨front, more, rfl, free⟩ := List.eq_append_cons_of_mem member
    rw [List.append_assoc, List.cons_append, valuePart, valuePart, takeWhile_ne_stop free,
      takeWhile_ne_stop free]
  · rw [valuePart, takeWhile_ne_stop member, valuePart,
      List.takeWhile_eq_self_iff.mpr (accepts_of_notMem member)]

/-- The form begins with its kind. -/
theorem pairs_form (clientId clientSecret : Bytes) :
    pairs (credentialsForm clientId clientSecret) =
      (ascii "grant_type", ascii "client_credentials") ::
        pairs (ascii "client_id" ++ equals :: (clientId ++ ampersand ::
          (ascii "client_secret" ++ equals :: clientSecret))) := by
  have document : credentialsForm clientId clientSecret =
      ascii "grant_type=client_credentials" ++ ampersand :: (ascii "client_id" ++ equals ::
        (clientId ++ ampersand :: (ascii "client_secret" ++ equals :: clientSecret))) := by
    simp [credentialsForm, ascii]
  rw [document, pairs_cons (by decide) (by decide)]
  rfl

/-- The form has the pairs of the client exactly if both texts stand for themselves. -/
theorem pairs_credentialsForm_iff (clientId clientSecret : Bytes) :
    pairs (credentialsForm clientId clientSecret) = credentialPairs clientId clientSecret ↔
      FormPlain clientId ∧ FormPlain clientSecret := by
  have idName : decodeText (ascii "client_id") = ascii "client_id" := by decide
  have secretName : decodeText (ascii "client_secret") = ascii "client_secret" := by decide
  obtain ⟨behind, first, -⟩ := pairs_named (by decide : equals ∉ ascii "client_id") (by decide)
    (clientId ++ ampersand :: (ascii "client_secret" ++ equals :: clientSecret))
  obtain ⟨last, second, alone⟩ := pairs_named (by decide : equals ∉ ascii "client_secret") (by decide)
    clientSecret
  rw [valuePart_append, idName] at first
  rw [secretName] at second
  have split : ampersand ∉ clientId → behind = (ascii "client_secret", decodeText (valuePart clientSecret)) ::
      last := by
    intro free
    have piece : ampersand ∉ ascii "client_id" ++ equals :: clientId := by
      simp only [List.mem_append, List.mem_cons, not_or]
      exact ⟨by decide, by decide, free⟩
    have document : ascii "client_id" ++ equals :: (clientId ++ ampersand ::
        (ascii "client_secret" ++ equals :: clientSecret)) =
        (ascii "client_id" ++ equals :: clientId) ++ ampersand ::
          (ascii "client_secret" ++ equals :: clientSecret) := by simp
    rw [document, pairs_cons piece (by simp), second] at first
    exact (List.cons.inj first).2.symm
  rw [pairs_form, first, credentialPairs]
  simp only [List.cons.injEq, Prod.mk.injEq, true_and, decode_valuePart_iff]
  constructor
  · rintro ⟨plain, rest⟩
    rw [split plain.whole] at rest
    simp only [List.cons.injEq, Prod.mk.injEq, true_and, decode_valuePart_iff] at rest
    exact ⟨plain, rest.1⟩
  · rintro ⟨plain, other⟩
    rw [split plain.whole, alone other.whole, (decode_valuePart_iff clientSecret).mpr other]
    exact ⟨plain, rfl⟩

/-- What is posted names the client and its secret exactly if both stand for themselves in a form and the
form has its place in the buffer. -/
theorem clientCredentialsPost_names_iff (issuer clientId clientSecret : Bytes) :
    (clientCredentialsPost issuer clientId clientSecret).Names clientId clientSecret ↔
      FormPlain clientId ∧ FormPlain clientSecret ∧ 55 + clientId.length + clientSecret.length < 1024 := by
  have length : (credentialsForm clientId clientSecret).length =
      55 + clientId.length + clientSecret.length := by
    have front : (ascii "grant_type=client_credentials&client_id=").length = 40 := by decide
    have middle : (ascii "&client_secret=").length = 15 := by decide
    simp only [credentialsForm, List.length_append, front, middle]
    omega
  unfold FormPost.Names clientCredentialsPost
  dsimp only
  by_cases fits : 55 + clientId.length + clientSecret.length < 1024
  · rw [snprintf_fits (by omega), pairs_credentialsForm_iff]
    exact ⟨fun ⟨_, first, second⟩ => ⟨first, second, fits⟩, fun ⟨first, second, _⟩ => ⟨rfl, first, second⟩⟩
  · refine iff_of_false (fun ⟨same, _⟩ => ?_) (fun ⟨_, _, short⟩ => fits short)
    rw [snprintf, List.length_take] at same
    omega

/-- A client whose id has an ampersand logs in as another one. -/
theorem clientCredentialsPost_ampersand :
    pairs (clientCredentialsPost [] (ascii "a&client_id=b") (ascii "s")).body =
        [(ascii "grant_type", ascii "client_credentials"), (ascii "client_id", ascii "a"),
          (ascii "client_id", ascii "b"), (ascii "client_secret", ascii "s")] ∧
      ¬ ∀ issuer clientId clientSecret : Bytes,
        (clientCredentialsPost issuer clientId clientSecret).Names clientId clientSecret := by
  have found : pairs (clientCredentialsPost [] (ascii "a&client_id=b") (ascii "s")).body =
      [(ascii "grant_type", ascii "client_credentials"), (ascii "client_id", ascii "a"),
        (ascii "client_id", ascii "b"), (ascii "client_secret", ascii "s")] := by decide +kernel
  refine ⟨found, fun all => ?_⟩
  have same := (all [] (ascii "a&client_id=b") (ascii "s")).2
  rw [found] at same
  have short := congrArg List.length same
  cases short

end Cookbook.Auth
