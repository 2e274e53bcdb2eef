import Parley.Backend.Client
import Parley.CommandLine
import Parley.Log.Warning
import Parley.Server
import Parley.Startup.Address
import Parley.Startup.Disk
import Parley.Startup.Location
import Parley.Translation.Sweep

/-!
# Startup

What happens from the command line to the moment the server listens: the
configuration is read, the store is opened, the backend gets its key, the queue
is made, sweeping begins, and the address is bound. The first thing that fails
ends it.
-/

namespace Parley
namespace Startup

structure Host (m : Type → Type) where
  setting : String → m (Option String)
  /-- The place that paths start from. -/
  here : m (List String)
  find : String → m Found
  /-- Makes an empty file at a place, and says whether that could be done. -/
  create : List String → m Bool

/-!
# Settings
-/

/-- The settings of a program, each a name and a value; of two of one name the later counts. -/
structure Settings where
  entries : List (String × String)
  deriving DecidableEq, Repr

/-- The value of a setting. A setting is kept as its name, an equals sign and its value, and a name
ends at any equals sign that is asked for. -/
def Settings.value? (s : Settings) (name : String) : Option String :=
  if name.isEmpty then none
  else
    s.entries.reverse.findSome? fun e =>
      (Text.after? (name ++ "=").toList (e.1 ++ "=" ++ e.2).toList).map String.ofList

def Settings.host (s : Settings) : Host (StateM Disk) where
  setting name := pure (s.value? name)
  here := return (← get).here
  find path := return (← get).find path
  create place := modifyGet fun d => d.create place

/-!
# The store
-/

def pathOf (place : List String) : String :=
  "/" ++ "/".intercalate place

def longestPlace : Nat :=
  511

def longestStoreName : Nat :=
  longestName - 8

/-- The place that the steps of a path tell: a double point takes back a step, and every place on
the way may be there or not, unless its path is barred. -/
def follow [Monad m] (h : Host m) (place : List String) : List String → m (Option (List String))
  | [] => return some place
  | name :: rest =>
    if name.isEmpty || name = "." then follow h place rest
    else if name = ".." then follow h place.dropLast rest
    else do
      let next := place ++ [name]
      if longestPlace < (pathOf next).utf8ByteSize then return none
      if (← h.find (pathOf next)) = .barred then return none
      follow h next rest

/-- The store of the file at a place. The file is made if it may be, even where the store then
cannot be used. -/
def openPlace [Monad m] (h : Host m) (l : Location) (place : List String) :
    m (Option Translation.Store) := do
  let isUsable := !l.isFrozen && (place.getLastD "").utf8ByteSize ≤ longestStoreName
  match ← h.find (pathOf place) with
  | .item (.file content) =>
    return if isUsable then (Translation.Store.open? content).toOption else none
  | .missing =>
    if l.access = .making then
      return if (← h.create place) && isUsable then some .empty else none
    else return none
  | _ => return none

def openLocation [Monad m] (h : Host m) (l : Location) : m (Option Translation.Store) := do
  if l.access = .reading then return none
  if l.isInMemory then return some .empty
  if l.isNominal then return if l.isFrozen then none else some .empty
  let here ← h.here
  match ← follow h (if startsAtRoot l.path then [] else here) (steps l.path) with
  | none => return none
  | some place => openPlace h l place

def openStore [Monad m] (h : Host m) (path : String) : m (Option Translation.Store) := do
  match Location.ofString? path with
  | none => return none
  | some l => openLocation h l

/-!
# Starting
-/

inductive Ending where
  | exited (code : Nat)
  | listening (address : String) (server : Server)

structure Outcome where
  ending : Ending
  output : String
  errors : String
  warnings : List Log.Warning

def exited (code : Nat) (output errors : String) : Outcome :=
  ⟨.exited code, output, errors, []⟩

def failed (message : String) (warnings : List Log.Warning) : Outcome :=
  ⟨.exited 1, "", "Error: " ++ message ++ "\n", warnings⟩

def brokenDown (warnings : List Log.Warning) : Outcome :=
  ⟨.exited 101, "", "\nbroken down\n", warnings⟩

def readConfig : Found → Except Config.Error Config
  | .item (.file content) => Config.ofText content
  | .item .device => Config.ofText ""
  | .item (.folder _) => .error (.unreadable false)
  | .barred => .error (.unreadable false)
  | .missing => .error (.unreadable true)

def configure (path : String) (found : Found) :
    Except Config.Error (Config × List Log.Warning) :=
  match readConfig found with
  | .ok c => .ok (c, [])
  | .error e =>
    if e.isMissing then
      .ok ({}, [⟨"xmcl_edge", path ++ " not found, using default configuration"⟩])
    else .error e

def serverOf (c : Config) (store : Translation.Store) : Server :=
  ⟨.ofLimits c.relay.channelCapacity c.relay.maxFrameBytes,
    ⟨store, .ofCapacity c.translation.queueCapacity, {}⟩⟩

def keyWarnings (c : Config) (key : Option String) : List Log.Warning :=
  match Backend.Client.ofEnvironment c.translation fun _ => key with
  | .ok _ => []
  | .error e => [⟨"xmcl_edge", e.message ++ "; backend calls will be unauthenticated"⟩]

def sweepWarnings (c : Config) : List Log.Warning :=
  (Translation.ttlWarning? c.cleanup).toList.map fun text => ⟨"xmcl_edge_server::cleanup", text⟩

def launch (c : Config) (store : Translation.Store) (warnings : List Log.Warning) : Outcome :=
  if Translation.Queue.most < c.translation.queueCapacity then brokenDown warnings
  else
    let warnings := warnings ++ sweepWarnings c
    if canListen c.server.bindAddress then
      ⟨.listening c.server.bindAddress (serverOf c store), "", "", warnings⟩
    else failed ("binding " ++ c.server.bindAddress) warnings

def serve [Monad m] (h : Host m) (path : String) : m Outcome := do
  match configure path (← h.find path) with
  | .error e => return failed (e.message ++ " " ++ path) []
  | .ok (c, warnings) =>
    match ← openStore h c.storage.database with
    | none => return failed ("opening " ++ c.storage.database) warnings
    | some store =>
      return launch c store (warnings ++ keyWarnings c (← h.setting c.translation.apiKeyEnv))

/-- What is logged: what a setting says, or if it is not there or cannot be read, every warning. -/
def logFilter (setting : Option String) : Log.Filter :=
  (setting.bind Log.Filter.ofString?).getD ⟨[⟨none, none, [], .info⟩]⟩

def run [Monad m] (h : Host m) (args : List String) : m Outcome := do
  match Command.ofArguments args with
  | .error e => return exited 2 "" e.report
  | .ok .help => return exited 0 Command.helpText ""
  | .ok .version => return exited 0 ("xmcl-edge " ++ Server.version ++ "\n") ""
  | .ok (.serve path) => do
    let filter := logFilter (← h.setting "RUST_LOG")
    let outcome ← serve h path
    return { outcome with warnings := Log.Warning.logged filter outcome.warnings }

end Startup
end Parley
