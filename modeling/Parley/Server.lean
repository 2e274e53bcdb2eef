import Parley.Http.Answer
import Parley.Http.Join
import Parley.Relay.Hub

/-!
# The server

The relay and the translations, and what they answer over HTTP.
-/

namespace Parley

structure Server where
  hub : Relay.Hub
  desk : Translation.Desk
  deriving DecidableEq, Repr

namespace Server

open Http

def version : String :=
  "0.1.0"

/-!
# Reports
-/

def cached? (s : Server) : Option Nat :=
  s.desk.store.count.toOption

/-- Without its cache a server still relays, but it is degraded. -/
def health (s : Server) (uptime : Nat) : Json.Value :=
  .object
    [("status", .string (if s.cached?.isSome then "ok" else "degraded")),
      ("version", .string version),
      ("connections", .int s.hub.house.groups.connections),
      ("groups", .int s.hub.house.groups.size),
      ("translations", Json.Value.ofOption (fun n => .int (n : Nat)) s.cached?),
      ("uptime_seconds", .int uptime)]

structure Measure where
  name : String
  about : String
  /-- Whether it only ever grows. -/
  isCounter : Bool
  labels : String
  value : Nat

def Measure.write (m : Measure) : String :=
  let name := "xmcl_edge_" ++ m.name
  "# HELP " ++ name ++ " " ++ m.about ++ "\n# TYPE " ++ name ++ " " ++
    (if m.isCounter then "counter" else "gauge") ++ "\n" ++ name ++ m.labels ++ " " ++
    String.ofList (Text.digits m.value) ++ "\n"

def measures (s : Server) : List Measure :=
  let m := s.hub.house.meters
  let c := s.desk.counters
  [⟨"connections_active", "Number of active relay connections", false, "",
      s.hub.house.groups.connections⟩,
    ⟨"groups_active", "Number of active relay groups", false, "", s.hub.house.groups.size⟩,
    ⟨"translations_cached", "Number of cached translations", false, "", s.cached?.getD 0⟩,
    ⟨"info", "Server information", false, "\x7bversion=\"" ++ version ++ "\"\x7d", 1⟩,
    ⟨"connections_total", "Total relay connections accepted", true, "", m.connections⟩,
    ⟨"frames_relayed_total", "Total frames published to groups", true, "", m.relayed⟩,
    ⟨"frames_delivered_total", "Total frames delivered to sockets", true, "", m.delivered⟩,
    ⟨"frames_dropped_total", "Total oversized frames dropped", true, "", m.dropped⟩,
    ⟨"pongs_sent_total", "Total PONG replies sent", true, "", m.pongs⟩,
    ⟨"translations_requested_total", "Total translation requests", true, "", c.requested⟩,
    ⟨"translations_ready_total", "Total requests served from cache", true, "", c.ready⟩,
    ⟨"translations_pending_total", "Total requests answered pending", true, "", c.pending⟩,
    ⟨"jobs_completed_total", "Total translation jobs completed", true, "", c.completed⟩,
    ⟨"jobs_failed_total", "Total translation jobs failed", true, "", c.failed⟩]

def metrics (s : Server) : String :=
  "\n".intercalate (s.measures.map Measure.write)

/-!
# Responses
-/

def answer (s : Server) (now : Int) (uptime : Nat) (r : Request) (query : String) :
    Route → Response × Server
  | .group segment => (Invitation.declined segment query, s)
  | .translation =>
    let (response, desk) := Answer.give s.desk now r
    (response, { s with desk := desk })
  | .health => (.json 200 (s.health uptime), s)
  | .metrics => (.typed 200 "text/plain; version=0.0.4; charset=utf-8" s.metrics, s)

/-- A response to anything. One to `HEAD` has the fields of one to `GET`, but no body. -/
def respond (s : Server) (now : Int) (uptime : Nat) (r : Request) : Response × Server :=
  match Target.ofString? r.target with
  | none => (.bare 400, s)
  | some target =>
    match Route.ofPath? target.path with
    | none => (.bare 404, s)
    | some route =>
      if route.methods.contains r.method then
        let (response, s) := s.answer now uptime r target.query route
        (if r.method = "HEAD" then response.withoutBody else response, s)
      else
        ((Response.bare 405).withField "allow" (",".intercalate route.methods), s)

end Server
end Parley
