import Parley.Text.Utf8
import Parley.Toml.Source

/-!
# Configuration

Every setting has a default, so an empty document is a configuration. Settings
are grouped in sections; what a section does not know is passed over.
-/

namespace Parley
namespace Config

structure Server where
  bindAddress : String := "0.0.0.0:8080"
  deriving DecidableEq, Repr

structure Relay where
  /-- Messages a group keeps for members that read slowly. -/
  channelCapacity : Nat := 256
  /-- Larger frames are dropped. -/
  maxFrameBytes : Nat := 1048576
  deriving DecidableEq, Repr

structure Storage where
  database : String := "translations.db"
  deriving DecidableEq, Repr

inductive Mode where
  | chat
  | machine
  deriving DecidableEq, Repr

structure Translation where
  backendUrl : String := "https://api.openai.com/v1/chat/completions"
  model : String := "gpt-4o-mini"
  /-- The environment variable with the key of the backend. -/
  apiKeyEnv : String := "OPENAI_API_KEY"
  mode : Mode := .chat
  markdownWindow : Nat := 10000
  htmlWindow : Nat := 15000
  requestTimeoutSecs : Nat := 120
  queueCapacity : Nat := 64
  workerEnabled : Bool := true
  maxConcurrentJobs : Nat := 4
  deriving DecidableEq, Repr

structure Cleanup where
  intervalSecs : Nat := 60
  lockTtlSecs : Nat := 900
  enabled : Bool := true
  deriving DecidableEq, Repr

end Config

structure Config where
  server : Config.Server := {}
  relay : Config.Relay := {}
  storage : Config.Storage := {}
  translation : Config.Translation := {}
  cleanup : Config.Cleanup := {}
  deriving DecidableEq, Repr

namespace Config

def Mode.name : Mode → String
  | .chat => "chat"
  | .machine => "machine"

def Mode.ofName? (name : String) : Option Mode :=
  if name = "chat" then some .chat
  else if name = "machine" then some .machine
  else none

/-!
# Errors
-/

inductive Error where
  | unreadable (missing : Bool)
  | malformed
  deriving DecidableEq, Repr

def Error.message : Error → String
  | .unreadable _ => "failed to read config file"
  | .malformed => "failed to parse config file"

def Error.isMissing : Error → Bool
  | .unreadable missing => missing
  | .malformed => false

/-!
# Settings

A section is a table of named settings, or a list of settings in their order. A
moment is a section without settings.
-/

open Toml

def settings? : Item → Option (String → Nat → Option Item)
  | .table _ members => some fun name _ => Members.find? members name
  | .list items => some fun _ i => items[i]?
  | .rows tables => some fun _ i => (tables.reverse[i]?).map (Item.table .header)
  | .moment => some fun _ _ => none
  | _ => none

def text? : Item → Option String
  | .text s => some s
  | _ => none

def count? : Item → Option Nat
  | .integer n => if n < 0 then none else some n.toNat
  | _ => none

def flag? : Item → Option Bool
  | .flag b => some b
  | _ => none

def isEmptyItem : Item → Bool
  | .table _ members => members.isEmpty
  | .list items => items.isEmpty
  | .rows tables => tables.isEmpty
  | _ => false

/-- A mode by its name, or as a table with that name and nothing in it. -/
def mode? : Item → Option Mode
  | .text s => Mode.ofName? s
  | .table _ [(name, item)] => if isEmptyItem item then Mode.ofName? name else none
  | _ => none

/-- A setting that has a default, but may not be wrong. -/
def setting (get : String → Nat → Option Item) (read : Item → Option α) (name : String) (i : Nat)
    (default : α) : Option α :=
  match get name i with
  | none => some default
  | some item => read item

def section? (members : Members) (name : String) (default : α)
    (read : (String → Nat → Option Item) → Option α) : Option α :=
  match members.find? name with
  | none => some default
  | some item => (settings? item).bind read

def readServer (get : String → Nat → Option Item) : Option Server := do
  let d : Server := {}
  return ⟨← setting get text? "bind_address" 0 d.bindAddress⟩

def readRelay (get : String → Nat → Option Item) : Option Relay := do
  let d : Relay := {}
  return ⟨← setting get count? "channel_capacity" 0 d.channelCapacity,
    ← setting get count? "max_frame_bytes" 1 d.maxFrameBytes⟩

def readStorage (get : String → Nat → Option Item) : Option Storage := do
  let d : Storage := {}
  return ⟨← setting get text? "database" 0 d.database⟩

def readTranslation (get : String → Nat → Option Item) : Option Translation := do
  let d : Translation := {}
  return ⟨← setting get text? "backend_url" 0 d.backendUrl,
    ← setting get text? "model" 1 d.model,
    ← setting get text? "api_key_env" 2 d.apiKeyEnv,
    ← setting get mode? "mode" 3 d.mode,
    ← setting get count? "markdown_window" 4 d.markdownWindow,
    ← setting get count? "html_window" 5 d.htmlWindow,
    ← setting get count? "request_timeout_secs" 6 d.requestTimeoutSecs,
    ← setting get count? "queue_capacity" 7 d.queueCapacity,
    ← setting get flag? "worker_enabled" 8 d.workerEnabled,
    ← setting get count? "max_concurrent_jobs" 9 d.maxConcurrentJobs⟩

def readCleanup (get : String → Nat → Option Item) : Option Cleanup := do
  let d : Cleanup := {}
  return ⟨← setting get count? "interval_secs" 0 d.intervalSecs,
    ← setting get count? "lock_ttl_secs" 1 d.lockTtlSecs,
    ← setting get flag? "enabled" 2 d.enabled⟩

def ofMembers (members : Members) : Option Config := do
  return ⟨← section? members "server" {} readServer,
    ← section? members "relay" {} readRelay,
    ← section? members "storage" {} readStorage,
    ← section? members "translation" {} readTranslation,
    ← section? members "cleanup" {} readCleanup⟩

def ofText (text : String) : Except Error Config :=
  match (Toml.read? text).bind ofMembers with
  | some c => .ok c
  | none => .error .malformed

/-- The configuration in a file's bytes; no bytes are given if there is no such file. -/
def ofFile : Option (List UInt8) → Except Error Config
  | none => .error (.unreadable true)
  | some bytes =>
    match Text.Utf8.decode? bytes with
    | some text => ofText text
    | none => .error (.unreadable false)

end Config
end Parley
