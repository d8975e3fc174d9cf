import ReactiveSpace.Space.Surface
import ReactiveSpace.Text.Quoted

/-!
# Clients of services

A registry holds one client for each service. A client that is registered for the second time
replaces the first one.
-/

namespace ReactiveSpace

/-- Decrypts the secret headers of calls to a service. -/
abbrev Decryptor : Type := String → Option String

/-- The decryptor that decrypts nothing. -/
def Decryptor.refusing : Decryptor := fun _ => none

/-- A client with the decryptor it was registered with. -/
structure ServiceClient extends Client where
  decrypt : Decryptor

namespace ServiceClient

/-- A client as logs print it. -/
def text (c : ServiceClient) : String :=
  "GenericClient \x7b service: " ++ Text.quote c.service ++ ", class: " ++
    Text.quote c.clientClass ++ ", .. \x7d"

end ServiceClient

/-- The clients of a space, by service. -/
structure Registry where
  entries : List (String × ServiceClient) := []

namespace Registry

instance : Inhabited Registry := ⟨{}⟩

/-- The client of a service. -/
def get? (r : Registry) (service : String) : Option ServiceClient :=
  Keyed.get? service r.entries

/-- Registers a client for its service. -/
def register (r : Registry) (c : ServiceClient) : Registry :=
  ⟨Keyed.insert c.service c r.entries⟩

/-- Registers clients one after the other, all with one decryptor. -/
def ofClients (decrypt : Decryptor) (clients : List Client) : Registry :=
  clients.foldl (fun r c => r.register ⟨c, decrypt⟩) {}

/-- The services that have a client, sorted. -/
def services (r : Registry) : List String :=
  (Keyed.names r.entries).mergeSort (fun a b => decide (a ≤ b))

/-- The number of services that have a client. -/
def size (r : Registry) : Nat :=
  r.entries.length

/-- The clients, sorted by service. -/
def clients (r : Registry) : List Client :=
  r.services.filterMap fun service => (r.get? service).map ServiceClient.toClient

/-- The client of a service is the one registered last. -/
theorem get?_register (r : Registry) (c : ServiceClient) (service : String) :
    (r.register c).get? service = if c.service = service then some c else r.get? service := by
  simp [register, get?, Keyed.get?_insert]

end Registry

end ReactiveSpace
