import KeyLifecycle.AccessKey
import KeyLifecycle.Json.Basic
import KeyLifecycle.Text.Base64
import KeyLifecycle.Time.Instant

/-!
# Credentials

A credential is an access key with its secret, issued to an owner. Its document holds the secret, in
base64, and is written once, in the answer that issues it. Everything else sees a `Summary`, which
has no secret in it; `Secret.shown` gives the length alone.
-/

namespace KeyLifecycle

/-- The secret half of a credential. -/
structure Secret where
  bytes : List UInt8
  deriving DecidableEq, Inhabited

namespace Secret

/-- The secret in base64, for the answer that issues it. -/
def base64 (secret : Secret) : String := Text.Base64.encode .standard secret.bytes

/-- The secret as a diagnostic shows it: its length and nothing else. -/
def shown (secret : Secret) : String :=
  "SecretKey([REDACTED; " ++ toString secret.bytes.length ++ "])"

end Secret

/-- A fresh pair of access key and secret that nobody holds yet. -/
structure KeyMaterial where
  key : AccessKey
  secret : Secret
  deriving DecidableEq

/-- A credential as it is issued. -/
structure Credential where
  id : CredentialId
  owner : UserId
  key : AccessKey
  secret : Secret
  lastAuth : Option Instant
  deriving DecidableEq

/-- A credential without its secret. -/
structure Summary where
  key : AccessKey
  lastAuth : Option Instant
  deriving DecidableEq

/-- A moment of use in a document, or that there was none. -/
def momentJson : Option Instant → Json
  | none => .null
  | some t => .text t.text

namespace Credential

/-- The credential without its secret. -/
def summary (c : Credential) : Summary := ⟨c.key, c.lastAuth⟩

/-- The document that issues a credential; the numbers of credential and owner are left out. -/
def json (c : Credential) : Json :=
  .object [("accessKey", .text c.key.text), ("secretKey", .text c.secret.base64),
    ("lastAuth", momentJson c.lastAuth)]

end Credential

/-- The document of a summary. -/
def Summary.json (s : Summary) : Json :=
  .object [("accessKey", .text s.key.text), ("lastAuth", momentJson s.lastAuth)]

end KeyLifecycle
