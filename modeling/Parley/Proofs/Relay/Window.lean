import Parley.Relay.Connection

/-!
# When a connection is open

A connection opens with the first event that says so, unless it ended before, and
is open up to the first event that ends it. What has happened so far says where the
connection stands, and what of the events to come will fall into that time.
-/

namespace Parley
namespace Relay

namespace Event

def isEnding : Event → Bool
  | .failed _ => true
  | .ended => true
  | _ => false

/-- The hint that opens the connection, and the events from there up to the end. -/
def window? : List Event → Option (Option PeerId × List Event)
  | [] => none
  | .opened hint :: es => some (hint, es.takeWhile fun e => !e.isEnding)
  | e :: es => if e.isEnding then none else window? es

theorem window?_of_isEnding {e : Event} (h : e.isEnding = true) (es : List Event) :
    window? (e :: es) = none := by
  cases e with
  | failed reason => rfl
  | ended => rfl
  | opened | text | binary | heard => cases h

theorem takeWhile_of_isEnding {e : Event} (h : e.isEnding = true) (es : List Event) :
    (e :: es).takeWhile (fun e => !e.isEnding) = [] := by
  apply List.takeWhile_cons_of_neg
  simp [h]

theorem takeWhile_of_not_isEnding {e : Event} (h : e.isEnding = false) (es : List Event) :
    (e :: es).takeWhile (fun e => !e.isEnding) = e :: es.takeWhile fun e => !e.isEnding := by
  apply List.takeWhile_cons_of_pos
  simp [h]

end Event

namespace Connection

def after (c : Connection) (es : List Event) : Connection :=
  es.foldl (fun c e => (c.step e).1) c

theorem after_concat (c : Connection) (es : List Event) (e : Event) :
    c.after (es ++ [e]) = ((c.after es).step e).1 := by
  unfold after
  rw [List.foldl_append]
  rfl

theorem trace_concat (c : Connection) (es : List Event) (e : Event) :
    c.trace (es ++ [e]) = c.trace es ++ [(c.after es).step e] := by
  induction es generalizing c with
  | nil => rfl
  | cons a es ih =>
      show c.step a :: (c.step a).1.trace (es ++ [e]) = _
      rw [ih]
      rfl

theorem getElem?_trace (c : Connection) (es : List Event) (k : Nat) :
    (c.trace es)[k]? = es[k]?.map fun e => (c.after (es.take k)).step e := by
  induction es generalizing c k with
  | nil => rfl
  | cons a es ih =>
      cases k with
      | zero => rfl
      | succ k =>
          show ((c.step a).1.trace es)[k]? = _
          rw [ih]
          rfl

theorem take_succ_of_getElem? {es : List Event} {k : Nat} {e : Event} (h : es[k]? = some e) :
    es.take (k + 1) = es.take k ++ [e] := by
  rw [List.take_add_one, h]
  rfl

end Connection
end Relay
end Parley
