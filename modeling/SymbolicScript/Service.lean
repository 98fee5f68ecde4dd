import SymbolicScript.Digest.Sha256

/-!
# Interop services

Scripts call the services of their host by a hash: the number in the first four bytes, least
significant first, of the digest of the service's name. The storage services are the ones whose
effects are modelled.
-/

namespace SymbolicScript

namespace Service

/-- The hash by which a service is called. -/
def hash (name : String) : Nat :=
  LittleEndian.toNat ((Sha256.digest name.toUTF8.toList).take 4)

end Service

/-- The services that work on persistent storage. -/
inductive StorageService where
  /-- Gets a context for reading and writing. -/
  | getContext
  /-- Gets a context for reading. -/
  | getReadOnlyContext
  /-- Reads the value of a key. -/
  | get
  /-- Writes the value of a key. -/
  | put
  /-- Removes a key. -/
  | delete
  deriving DecidableEq, Repr

namespace StorageService

/-- The name of a service. -/
def name : StorageService → String
  | getContext => "System.Storage.GetContext"
  | getReadOnlyContext => "System.Storage.GetReadOnlyContext"
  | get => "System.Storage.Get"
  | put => "System.Storage.Put"
  | delete => "System.Storage.Delete"

/-- Every service. -/
def all : List StorageService := [getContext, getReadOnlyContext, get, put, delete]

/-- The hash of every service. -/
def directory : List (Nat × StorageService) :=
  all.map fun service => (Service.hash service.name, service)

/-- The service that is called by a hash, if any. -/
def ofHash? (hash : Nat) : Option StorageService :=
  directory.lookup hash

end StorageService

end SymbolicScript
