import DataBridge.Framework.Json
import DataBridge.Schemas.Connection

namespace DataBridge

open FlatJson (dumps loads loads_dumps)

/-- The two operations of a Fernet key. Bytes stand as the text they encode; `none` is
`InvalidToken`. -/
structure Fernet where
  encrypt : String → String
  decrypt : String → Option String

/-- Decryption undoes encryption. -/
def Fernet.Undoes (fernet : Fernet) : Prop :=
  ∀ plaintext, fernet.decrypt (fernet.encrypt plaintext) = some plaintext

variable (fernet : Fernet)

def encryptCredentials (data : Credentials) : String := fernet.encrypt (dumps data)

def decryptCredentials (ciphertext : String) : Except Exc Credentials :=
  match (fernet.decrypt ciphertext).bind loads with
  | some data => .ok data
  | none => .error ⟨.valueError, "Failed to decrypt credentials"⟩

/-- No credentials dict is changed by being stored. -/
theorem decrypt_encryptCredentials (h : fernet.Undoes) (data : Credentials) :
    decryptCredentials fernet (encryptCredentials fernet data) = .ok data := by
  have hplain := h (dumps data)
  rw [decryptCredentials, encryptCredentials, hplain, Option.bind_some, loads_dumps]

end DataBridge
