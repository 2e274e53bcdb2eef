import Parley.Naming.Content

/-!
# Locks

A translation that is under way is locked by its key, so that nobody starts it
twice. Who takes a lock gets a token; refreshing and releasing take the token,
so a lock that was swept away and taken anew is safe from its former owner.
Tokens are numbered as they are made and never made twice.
-/

namespace Parley
namespace Translation

structure Token where
  number : Nat
  deriving DecidableEq, Repr

structure Lock where
  key : ContentKey
  token : Token
  /-- When the lock was taken or last refreshed, in seconds. -/
  stamp : Int
  deriving DecidableEq, Repr

structure Locks where
  held : List Lock
  made : Nat
  deriving DecidableEq, Repr

namespace Lock

def isFor (l : Lock) (key : ContentKey) : Bool :=
  l.key = key

def isOwnedBy (l : Lock) (key : ContentKey) (token : Token) : Bool :=
  l.key = key && l.token = token

end Lock

namespace Locks

def empty : Locks :=
  ⟨[], 0⟩

def isHeld (ls : Locks) (key : ContentKey) : Bool :=
  ls.held.any fun l => l.isFor key

def owns (ls : Locks) (key : ContentKey) (token : Token) : Bool :=
  ls.held.any fun l => l.isOwnedBy key token

/-- Makes a token, and takes the lock for it if nobody holds it. -/
def take (ls : Locks) (key : ContentKey) (now : Int) : Option Token × Locks :=
  let token : Token := ⟨ls.made⟩
  if ls.isHeld key then (none, ⟨ls.held, ls.made + 1⟩)
  else (some token, ⟨⟨key, token, now⟩ :: ls.held, ls.made + 1⟩)

def refresh (ls : Locks) (key : ContentKey) (token : Token) (now : Int) : Bool × Locks :=
  (ls.owns key token,
    { ls with
      held := ls.held.map fun l => if l.isOwnedBy key token then { l with stamp := now } else l })

def release (ls : Locks) (key : ContentKey) (token : Token) : Locks :=
  { ls with held := ls.held.filter fun l => !l.isOwnedBy key token }

/-- Releases all locks stamped before the cutoff, and counts them. -/
def sweep (ls : Locks) (cutoff : Int) : Nat × Locks :=
  (ls.held.countP fun l => l.stamp < cutoff,
    { ls with held := ls.held.filter fun l => !(l.stamp < cutoff) })

def age (ls : Locks) (secs : Int) : Locks :=
  { ls with held := ls.held.map fun l => { l with stamp := l.stamp - secs } }

end Locks
end Translation
end Parley
