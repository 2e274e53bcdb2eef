import Parley.Translation.Cache
import Parley.Translation.Lock

/-!
# The store

The cache and the locks, in two tables. A table can go missing; then every call
on it fails and changes nothing.
-/

namespace Parley
namespace Translation

inductive StoreError where
  | database
  | migration (reason : String)
  | corrupt (reason : String)
  deriving DecidableEq, Repr

def StoreError.message : StoreError → String
  | .database => "database error"
  | .migration reason => "migration error: " ++ reason
  | .corrupt reason => "corrupt row: " ++ reason

inductive Table where
  | cache
  | locks
  deriving DecidableEq, Repr

structure Store where
  cache : Cache
  hasCache : Bool
  locks : Locks
  hasLocks : Bool
  deriving DecidableEq, Repr

namespace Store

def empty : Store :=
  ⟨.empty, true, .empty, true⟩

/-- A store in a file with this content: a file of at most one byte becomes one, any other is
none. -/
def open? (content : String) : Except StoreError Store :=
  if content.utf8ByteSize ≤ 1 then .ok empty else .error .database

def reopen (s : Store) : Store :=
  { s with hasCache := true, hasLocks := true }

def lose (s : Store) : Table → Store
  | .cache => { s with cache := .empty, hasCache := false }
  | .locks => { s with locks := ⟨[], s.locks.made⟩, hasLocks := false }

/-!
# Calls
-/

def get (s : Store) (key : ContentKey) : Except StoreError (Option Entry) :=
  if s.hasCache then
    match s.cache.get key with
    | .ok entry => .ok entry
    | .error e => .error (.corrupt e.message)
  else .error .database

def insert (s : Store) (e : Entry) : Except StoreError Bool × Store :=
  if s.hasCache then
    let (written, cache) := s.cache.insert e
    (.ok written, { s with cache := cache })
  else (.error .database, s)

def count (s : Store) : Except StoreError Nat :=
  if s.hasCache then .ok s.cache.count else .error .database

def tryLock (s : Store) (key : ContentKey) (now : Int) : Except StoreError (Option Token) × Store :=
  if s.hasLocks then
    let (token, locks) := s.locks.take key now
    (.ok token, { s with locks := locks })
  else (.error .database, s)

def refresh (s : Store) (key : ContentKey) (token : Token) (now : Int) :
    Except StoreError Bool × Store :=
  if s.hasLocks then
    let (owned, locks) := s.locks.refresh key token now
    (.ok owned, { s with locks := locks })
  else (.error .database, s)

def unlock (s : Store) (key : ContentKey) (token : Token) : Except StoreError Unit × Store :=
  if s.hasLocks then (.ok (), { s with locks := s.locks.release key token })
  else (.error .database, s)

def sweep (s : Store) (cutoff : Int) : Except StoreError Nat × Store :=
  if s.hasLocks then
    let (released, locks) := s.locks.sweep cutoff
    (.ok released, { s with locks := locks })
  else (.error .database, s)

end Store
end Translation
end Parley
