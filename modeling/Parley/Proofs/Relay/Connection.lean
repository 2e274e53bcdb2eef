import Parley.Relay.Connection

/-!
# Who a message is for
-/

namespace Parley

namespace Routing

theorem ne_empty_of_field? {name value : String} {v : Json.Value}
    (h : field? name v = some value) : value ≠ "" := by
  rw [field?, Option.filter_eq_some_iff] at h
  rintro rfl
  simp at h

end Routing

theorem TextFrame.receiver_ne_empty {text : String} {r : Routing} {receiver : String}
    (hrouted : ofText text = .routed r) (hreceiver : r.receiver = some receiver) :
    receiver ≠ "" := by
  rw [ofText] at hrouted
  split at hrouted
  · cases hrouted
    exact Routing.ne_empty_of_field? hreceiver
  · cases hrouted

namespace Relay

/-- A text frame that is an object and names a receiver, who is not the peer as it is known. -/
def IsForAnother (peer : Option PeerId) (p : Payload) : Prop :=
  ∃ me text r receiver, peer = some me ∧ p = .text text ∧ TextFrame.ofText text = .routed r ∧
    r.receiver = some receiver ∧ receiver ≠ "" ∧ receiver ≠ me.text

theorem shouldDeliver_eq_false_iff {peer : Option PeerId} {p : Payload} :
    shouldDeliver peer p = false ↔ IsForAnother peer p := by
  constructor
  · intro h
    rcases peer with _ | me
    · cases h
    · cases p with
      | binary bytes => cases h
      | text text =>
          cases hframe : TextFrame.ofText text with
          | unrouted =>
              rw [shouldDeliver, hframe] at h
              cases h
          | routed r =>
              cases hreceiver : r.receiver with
              | none =>
                  simp [shouldDeliver, hframe, TextFrame.receiver?, TextFrame.routing?,
                    hreceiver] at h
              | some receiver =>
                  refine ⟨me, text, r, receiver, rfl, rfl, hframe, hreceiver,
                    TextFrame.receiver_ne_empty hframe hreceiver, ?_⟩
                  simp [shouldDeliver, hframe, TextFrame.receiver?, TextFrame.routing?,
                    hreceiver] at h
                  exact Ne.symm h
  · rintro ⟨me, text, r, receiver, rfl, rfl, hframe, hreceiver, _, hother⟩
    simp [shouldDeliver, hframe, TextFrame.receiver?, TextFrame.routing?, hreceiver,
      Ne.symm hother]

instance (peer : Option PeerId) (p : Payload) : Decidable (IsForAnother peer p) :=
  decidable_of_iff _ shouldDeliver_eq_false_iff

theorem shouldDeliver_eq_not_isForAnother (peer : Option PeerId) (p : Payload) :
    shouldDeliver peer p = !decide (IsForAnother peer p) := by
  cases hdeliver : shouldDeliver peer p with
  | false => simp [shouldDeliver_eq_false_iff.mp hdeliver]
  | true =>
      have hmine : ¬ IsForAnother peer p := by
        intro hother
        rw [shouldDeliver_eq_false_iff.mpr hother] at hdeliver
        cases hdeliver
      simp [hmine]

end Relay
end Parley
