import Parley.Relay.Channel

/-!
# What receivers have before them

A receiver that is not overtaken has before it all messages from its place on, in
the order they were sent, whatever the channel forgot. Reading takes what others
have sent off the front of it.
-/

namespace Parley
namespace Relay

def foreign (me : Tag) (ms : List Message) : List Payload :=
  (ms.filter fun m => m.origin ≠ me).map Message.payload

theorem foreign_append (me : Tag) (ms ms' : List Message) :
    foreign me (ms ++ ms') = foreign me ms ++ foreign me ms' := by
  rw [foreign, List.filter_append, List.map_append]
  rfl

namespace Channel

variable {c : Channel} {m : Message} {me : Tag} {room place : Nat}

/-!
# The first message of another
-/

theorem firstFrom_snd_le (me : Tag) (ms : List Message) : (firstFrom me ms).2 ≤ ms.length := by
  induction ms with
  | nil => exact Nat.le_refl 0
  | cons m ms ih =>
      rw [firstFrom]
      split
      · exact Nat.succ_le_succ ih
      · exact Nat.succ_le_succ (Nat.zero_le _)

theorem foreign_eq_firstFrom (me : Tag) (ms : List Message) :
    foreign me ms = (firstFrom me ms).1.toList ++ foreign me (ms.drop (firstFrom me ms).2) := by
  induction ms with
  | nil => rfl
  | cons m ms ih =>
      rw [firstFrom]
      split
      · rename_i hown
        have hskip : foreign me (m :: ms) = foreign me ms := by simp [foreign, hown]
        rw [hskip]
        exact ih
      · rename_i hother
        simp [foreign, hother]

theorem foreign_of_firstFrom_none {ms : List Message} (h : (firstFrom me ms).1 = none) :
    foreign me ms = [] := by
  induction ms with
  | nil => rfl
  | cons m ms ih =>
      rw [firstFrom] at h
      split at h
      · rename_i hown
        have hskip : foreign me (m :: ms) = foreign me ms := by simp [foreign, hown]
        rw [hskip]
        exact ih h
      · cases h

/-!
# Sending
-/

theorem unread_sent (h : c.kept.length ≤ c.sent) : c.unread c.sent = [] := by
  rw [unread, oldest]
  exact List.drop_eq_nil_of_le (by omega)

theorem kept_send_le (h : c.kept.length ≤ c.sent) :
    (c.send room m).kept.length ≤ (c.send room m).sent := by
  simp only [send, List.length_drop, List.length_append, List.length_singleton]
  omega

theorem oldest_le_oldest_send (h : c.kept.length ≤ c.sent) :
    c.oldest ≤ (c.send room m).oldest := by
  simp only [oldest, send, List.length_drop, List.length_append, List.length_singleton]
  omega

theorem unread_send (h : c.kept.length ≤ c.sent) (hplace : place ≤ c.sent)
    (hkept : (c.send room m).oldest ≤ place) :
    (c.send room m).unread place = c.unread place ++ [m] := by
  have hold : c.oldest ≤ (c.send room m).oldest := oldest_le_oldest_send h
  have hforgotten : c.kept.length + 1 - room + (place - (c.send room m).oldest) =
      place - c.oldest := by
    simp only [oldest, send, List.length_drop, List.length_append, List.length_singleton]
      at hkept hold ⊢
    omega
  have hlast : place - c.oldest ≤ c.kept.length := by
    rw [oldest]
    omega
  calc
    (c.send room m).unread place =
        (c.kept ++ [m]).drop (c.kept.length + 1 - room + (place - (c.send room m).oldest)) :=
      List.drop_drop
    _ = (c.kept ++ [m]).drop (place - c.oldest) := by rw [hforgotten]
    _ = c.unread place ++ [m] := List.drop_append_of_le_length hlast

/-!
# Reading
-/

theorem receive_snd_le (h : c.kept.length ≤ c.sent) (hplace : place ≤ c.sent) :
    (c.receive me place).2 ≤ c.sent := by
  have hread := firstFrom_snd_le me (c.unread place)
  have hunread : (c.unread place).length = c.kept.length - (place - c.oldest) := by
    rw [unread, List.length_drop]
  have hold : c.oldest = c.sent - c.kept.length := rfl
  change max place c.oldest + (firstFrom me (c.unread place)).2 ≤ c.sent
  omega

theorem foreign_receive (hkept : c.oldest ≤ place) :
    foreign me (c.unread place) =
      (c.receive me place).1.toList ++ foreign me (c.unread (c.receive me place).2) := by
  have hplace : (c.receive me place).2 = place + (firstFrom me (c.unread place)).2 := by
    change max place c.oldest + (firstFrom me (c.unread place)).2 = _
    rw [Nat.max_eq_left hkept]
  have hrest : c.unread (c.receive me place).2 =
      (c.unread place).drop (firstFrom me (c.unread place)).2 := by
    rw [hplace, unread, unread, List.drop_drop]
    congr 1
    omega
  rw [hrest]
  exact foreign_eq_firstFrom me (c.unread place)

theorem receive_fst_eq_head? : (c.receive me place).1 = (foreign me (c.unread place)).head? := by
  change (firstFrom me (c.unread place)).1 = _
  rw [foreign_eq_firstFrom]
  cases hfirst : (firstFrom me (c.unread place)).1 with
  | none =>
      have hnone := foreign_of_firstFrom_none hfirst
      rw [foreign_eq_firstFrom, hfirst] at hnone
      rw [hnone]
      rfl
  | some p => rfl

end Channel
end Relay
end Parley
