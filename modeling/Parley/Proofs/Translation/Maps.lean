import Mathlib.Data.Set.Card
import Parley.Proofs.Translation.Cache
import Parley.Proofs.Translation.Token

/-!
# The store as a pair of maps

Whatever is called for, and in whatever order, a store that was empty answers as two
maps would: one from keys to entries, where the first entry of a key stays, and one from
keys to locks. Neither map has any influence on the answers of the other.
-/

namespace Parley
namespace Translation

/-!
# Lists as maps

A list without two elements of one key is a finite map.
-/

section FirstOf

variable {α κ : Type} [DecidableEq κ] {f : α → κ} {l : List α} {k : κ} {a : α}

def firstOf (f : α → κ) (l : List α) (k : κ) : Option α :=
  l.find? fun a => f a = k

theorem firstOf_cons (a : α) (l : List α) :
    firstOf f (a :: l) = Function.update (firstOf f l) (f a) (some a) := by
  funext k
  rw [firstOf, List.find?_cons, Function.update_apply]
  by_cases hk : k = f a
  · rw [if_pos hk, decide_eq_true hk.symm]
  · rw [if_neg hk, decide_eq_false (Ne.symm hk)]
    rfl

theorem firstOf_concat (h : firstOf f l (f a) = none) :
    firstOf f (l ++ [a]) = Function.update (firstOf f l) (f a) (some a) := by
  funext k
  have happend : firstOf f (l ++ [a]) k = (firstOf f l k).or (firstOf f [a] k) :=
    List.find?_append
  rw [happend, firstOf_cons, Function.update_apply, Function.update_apply]
  by_cases hk : k = f a
  · rw [if_pos hk, if_pos hk, hk, h, Option.none_or]
  · rw [if_neg hk, if_neg hk]
    exact Option.or_none

theorem firstOf_isSome : (firstOf f l k).isSome = l.any fun a => f a = k :=
  List.isSome_find?

theorem firstOf_eq_some_iff (h : (l.map f).Nodup) :
    firstOf f l k = some a ↔ a ∈ l ∧ f a = k := by
  constructor
  · intro hfound
    exact ⟨List.mem_of_find?_eq_some hfound, by simpa using List.find?_some hfound⟩
  · rintro ⟨hmem, rfl⟩
    cases hfound : firstOf f l (f a) with
    | none => exact absurd (decide_eq_true rfl) (List.find?_eq_none.mp hfound a hmem)
    | some b =>
        have hkey : f b = f a := by simpa using List.find?_some hfound
        rw [List.inj_on_of_nodup_map h (List.mem_of_find?_eq_some hfound) hmem hkey]

theorem firstOf_filter (h : (l.map f).Nodup) (p : α → Bool) :
    firstOf f (l.filter p) k = (firstOf f l k).filter p := by
  ext a
  have hnodup : ((l.filter p).map f).Nodup := h.sublist (List.filter_sublist.map f)
  rw [firstOf_eq_some_iff hnodup, Option.filter_eq_some_iff, firstOf_eq_some_iff h,
    List.mem_filter]
  exact and_right_comm

theorem firstOf_map {g : α → α} (hg : ∀ a, f (g a) = f a) :
    firstOf f (l.map g) k = (firstOf f l k).map g := by
  unfold firstOf
  rw [List.find?_map]
  congr 2
  funext a
  simp [hg]

theorem ncard_firstOf (h : (l.map f).Nodup) (p : α → Bool) :
    Set.ncard {k | ∃ a, firstOf f l k = some a ∧ p a = true} = l.countP p := by
  have hkeys : {k | ∃ a, firstOf f l k = some a ∧ p a = true} =
      (((l.filter p).map f).toFinset : Set κ) := by
    ext k
    simp only [firstOf_eq_some_iff h, Set.mem_ofPred_eq, List.coe_toFinset, List.mem_map,
      List.mem_filter]
    constructor
    · rintro ⟨a, ⟨hmem, hkey⟩, ha⟩
      exact ⟨a, ⟨hmem, ha⟩, hkey⟩
    · rintro ⟨a, ⟨hmem, ha⟩, hkey⟩
      exact ⟨a, ⟨hmem, hkey⟩, ha⟩
  have hnodup : ((l.filter p).map f).Nodup := h.sublist (List.filter_sublist.map f)
  rw [hkeys, Set.ncard_coe_finset, List.toFinset_card_of_nodup hnodup, List.length_map,
    List.countP_eq_length_filter]

end FirstOf

/-!
# Calls
-/

inductive StoreCall where
  | get (key : ContentKey)
  | insert (e : Entry)
  | count
  | lock (c : LockCall)

inductive Answer where
  | found (entry : Option Entry)
  | inserted (isNew : Bool)
  | counted (n : Nat)
  | locked (token : Option Token)
  | refreshed (owned : Bool)
  | unlocked
  | swept (n : Nat)

namespace StoreCall

def entry? : StoreCall → Option Entry
  | .insert e => some e
  | _ => none

def table : StoreCall → Table
  | .lock _ => .locks
  | _ => .cache

end StoreCall

def Locks.answer (ls : Locks) : LockCall → Answer
  | .tryLock key now => .locked (ls.take key now).1
  | .refresh key token now => .refreshed (ls.refresh key token now).1
  | .unlock _ _ => .unlocked
  | .sweep cutoff => .swept (ls.sweep cutoff).1

namespace Store

def lockAnswer (s : Store) : LockCall → Except StoreError Answer
  | .tryLock key now => (s.tryLock key now).1.map .locked
  | .refresh key token now => (s.refresh key token now).1.map .refreshed
  | .unlock key token => (s.unlock key token).1.map fun _ => .unlocked
  | .sweep cutoff => (s.sweep cutoff).1.map .swept

def call (s : Store) : StoreCall → Except StoreError Answer × Store
  | .get key => ((s.get key).map .found, s)
  | .insert e => ((s.insert e).1.map .inserted, (s.insert e).2)
  | .count => (s.count.map .counted, s)
  | .lock c => (s.lockAnswer c, s.after c)

theorem call_lock (s : Store) (c : LockCall) :
    s.call (.lock c) =
      if s.hasLocks then (.ok (s.locks.answer c), { s with locks := s.locks.after c })
      else (.error .database, s) := by
  rw [call]
  cases c with
  | tryLock key now =>
      rw [lockAnswer, after, tryLock]
      split <;> rfl
  | refresh key token now =>
      rw [lockAnswer, after, refresh]
      split <;> rfl
  | unlock key token =>
      rw [lockAnswer, after, unlock]
      split <;> rfl
  | sweep cutoff =>
      rw [lockAnswer, after, sweep]
      split <;> rfl

def afterCalls (s : Store) (cs : List StoreCall) : Store :=
  cs.foldl (fun s c => (s.call c).2) s

def trace (s : Store) : List StoreCall → List (StoreCall × Except StoreError Answer)
  | [] => []
  | c :: cs => (c, (s.call c).1) :: trace (s.call c).2 cs

end Store

/-!
# Maps
-/

/-- Which key has which entry and which lock, and how many tokens were made. -/
structure Maps where
  entries : ContentKey → Option Entry
  locks : ContentKey → Option Lock
  made : Nat

namespace Maps

def empty : Maps :=
  ⟨fun _ => none, fun _ => none, 0⟩

def owns (m : Maps) (key : ContentKey) (token : Token) : Bool :=
  match m.locks key with
  | some l => l.token = token
  | none => false

def stale (m : Maps) (cutoff : Int) : Set ContentKey :=
  {key | ∃ l, m.locks key = some l ∧ l.stamp < cutoff}

noncomputable def call (m : Maps) : StoreCall → Answer × Maps
  | .get key => (.found (m.entries key), m)
  | .insert e =>
    match m.entries e.key with
    | some _ => (.inserted false, m)
    | none => (.inserted true, { m with entries := Function.update m.entries e.key (some e) })
  | .count => (.counted (Set.ncard {key | (m.entries key).isSome}), m)
  | .lock (.tryLock key now) =>
    match m.locks key with
    | some _ => (.locked none, { m with made := m.made + 1 })
    | none =>
      (.locked (some ⟨m.made⟩),
        { m with
          locks := Function.update m.locks key (some ⟨key, ⟨m.made⟩, now⟩)
          made := m.made + 1 })
  | .lock (.refresh key token now) =>
    if m.owns key token then
      (.refreshed true, { m with locks := Function.update m.locks key (some ⟨key, token, now⟩) })
    else (.refreshed false, m)
  | .lock (.unlock key token) =>
    if m.owns key token then
      (.unlocked, { m with locks := Function.update m.locks key none })
    else (.unlocked, m)
  | .lock (.sweep cutoff) =>
    (.swept (m.stale cutoff).ncard,
      { m with locks := fun key => (m.locks key).filter fun l => !(l.stamp < cutoff) })

noncomputable def afterCalls (m : Maps) (cs : List StoreCall) : Maps :=
  cs.foldl (fun m c => (m.call c).2) m

noncomputable def trace (m : Maps) : List StoreCall → List (StoreCall × Answer)
  | [] => []
  | c :: cs => (c, (m.call c).1) :: trace (m.call c).2 cs

end Maps

/-!
# Entries
-/

namespace Cache

variable {c : Cache} {es : List Entry} {e : Entry} {key : ContentKey}

structure IsMadeOf (c : Cache) (es : List Entry) : Prop where
  rows : c.rows = es.map Row.ofEntry
  distinct : (es.map Entry.key).Nodup

theorem IsMadeOf.row? (h : c.IsMadeOf es) (key : ContentKey) :
    c.row? key = (firstOf Entry.key es key).map Row.ofEntry := by
  have hsame : (fun r : Row => r.key == key.toHex) ∘ Row.ofEntry =
      fun e => decide (e.key = key) := by
    funext e
    apply Bool.eq_iff_iff.mpr
    rw [Function.comp_apply, beq_iff_eq, decide_eq_true_iff]
    exact ⟨ContentKey.toHex_injective, congrArg ContentKey.toHex⟩
  rw [Cache.row?, h.rows, List.find?_map, hsame]
  rfl

theorem IsMadeOf.get (h : c.IsMadeOf es) (key : ContentKey) :
    c.get key = .ok (firstOf Entry.key es key) := by
  rw [Cache.get, h.row?]
  cases firstOf Entry.key es key with
  | none => rfl
  | some e =>
      show (Row.ofEntry e).toEntry.map some = _
      rw [Row.toEntry_ofEntry]
      rfl

theorem IsMadeOf.insert_of_known (h : c.IsMadeOf es)
    (hknown : (firstOf Entry.key es e.key).isSome = true) : c.insert e = (false, c) := by
  have hrow : (c.row? e.key).isSome = true := by rw [h.row?, Option.isSome_map, hknown]
  rw [Cache.row?, List.isSome_find?] at hrow
  exact if_pos hrow

theorem IsMadeOf.insert_of_new (h : c.IsMadeOf es) (hnew : firstOf Entry.key es e.key = none) :
    c.insert e = (true, ⟨c.rows ++ [Row.ofEntry e]⟩) ∧
      IsMadeOf ⟨c.rows ++ [Row.ofEntry e]⟩ (es ++ [e]) := by
  have hrow : c.row? e.key = none := by rw [h.row?, hnew, Option.map_none]
  refine ⟨?_, ?_, ?_⟩
  · rw [Cache.row?, ← Option.not_isSome_iff_eq_none, List.isSome_find?] at hrow
    exact if_neg hrow
  · show c.rows ++ [Row.ofEntry e] = _
    rw [h.rows, List.map_append]
    rfl
  · rw [List.map_append]
    refine List.nodup_append.mpr ⟨h.distinct, List.nodup_singleton e.key, ?_⟩
    intro k hk k' hk' hsame
    rcases List.mem_map.mp hk with ⟨e', he', rfl⟩
    rw [List.mem_singleton.mp hk'] at hsame
    exact List.find?_eq_none.mp hnew e' he' (decide_eq_true hsame)

end Cache

/-!
# Locks
-/

namespace Locks

variable {ls : Locks} {key : ContentKey} {token : Token}

theorem Exclusive.nodup_keys (h : ls.Exclusive) : (ls.held.map Lock.key).Nodup := by
  rw [Exclusive, holds, List.map_map] at h
  exact h

theorem isHeld_eq : ls.isHeld key = (firstOf Lock.key ls.held key).isSome :=
  firstOf_isSome.symm

theorem owns_eq_true_iff (h : ls.Exclusive) :
    ls.owns key token = true ↔ ∃ l, firstOf Lock.key ls.held key = some l ∧ l.token = token := by
  simp only [owns, List.any_eq_true, Lock.isOwnedBy, Bool.and_eq_true, decide_eq_true_eq,
    firstOf_eq_some_iff h.nodup_keys, and_assoc]

theorem firstOf_take (hfree : ls.isHeld key = false) (now : Int) :
    firstOf Lock.key (ls.take key now).2.held =
      Function.update (firstOf Lock.key ls.held) key (some ⟨key, ⟨ls.made⟩, now⟩) := by
  rw [take, hfree]
  exact firstOf_cons _ ls.held

theorem firstOf_refresh (h : ls.Exclusive) (howns : ls.owns key token = true) (now : Int) :
    firstOf Lock.key (ls.refresh key token now).2.held =
      Function.update (firstOf Lock.key ls.held) key (some ⟨key, token, now⟩) := by
  rcases (owns_eq_true_iff h).mp howns with ⟨l, hl, rfl⟩
  funext key'
  rw [refresh, firstOf_map (by intro l; split <;> rfl)]
  by_cases hkey : key' = key
  · subst hkey
    have hlkey := ((firstOf_eq_some_iff h.nodup_keys).mp hl).right
    rw [Function.update_self, hl, Option.map_some, if_pos (by simp [Lock.isOwnedBy, hlkey]), hlkey]
  · rw [Function.update_of_ne hkey]
    cases hl' : firstOf Lock.key ls.held key' with
    | none => rfl
    | some l' =>
        have hlkey := ((firstOf_eq_some_iff h.nodup_keys).mp hl').right
        rw [Option.map_some, if_neg (by simp [Lock.isOwnedBy, hlkey, hkey])]

theorem firstOf_release (h : ls.Exclusive) (howns : ls.owns key token = true) :
    firstOf Lock.key (ls.release key token).held =
      Function.update (firstOf Lock.key ls.held) key none := by
  rcases (owns_eq_true_iff h).mp howns with ⟨l, hl, rfl⟩
  funext key'
  rw [release, firstOf_filter h.nodup_keys]
  by_cases hkey : key' = key
  · subst hkey
    have hlkey := ((firstOf_eq_some_iff h.nodup_keys).mp hl).right
    rw [Function.update_self, hl]
    simp [Lock.isOwnedBy, hlkey]
  · rw [Function.update_of_ne hkey]
    cases hl' : firstOf Lock.key ls.held key' with
    | none => rfl
    | some l' =>
        have hlkey := ((firstOf_eq_some_iff h.nodup_keys).mp hl').right
        simp [Lock.isOwnedBy, hlkey, hkey]

end Locks

/-!
# The store and its maps
-/

structure Store.Represents (s : Store) (m : Maps) : Prop where
  whole : s.IsWhole
  entries : ∃ es, s.cache.IsMadeOf es ∧ m.entries = firstOf Entry.key es
  sound : s.locks.IsSound
  locks : m.locks = firstOf Lock.key s.locks.held
  made : m.made = s.locks.made

namespace Store

variable {s : Store} {m : Maps}

theorem represents_empty : empty.Represents .empty where
  whole := ⟨rfl, rfl⟩
  entries := ⟨[], ⟨rfl, List.nodup_nil⟩, rfl⟩
  sound := Locks.isSound_empty
  locks := rfl
  made := rfl

theorem Represents.get (h : s.Represents m) (key : ContentKey) :
    s.get key = .ok (m.entries key) := by
  rcases h.entries with ⟨es, hrows, hentries⟩
  rw [get_of_isWhole h.whole, hrows.get, hentries]

theorem Represents.insert_of_known (h : s.Represents m) {e : Entry}
    (hknown : (m.entries e.key).isSome = true) : s.insert e = (.ok false, s) := by
  rcases h.entries with ⟨es, hrows, hentries⟩
  rw [hentries] at hknown
  rw [insert_of_isWhole h.whole, hrows.insert_of_known hknown]

theorem Represents.insert_of_new (h : s.Represents m) {e : Entry}
    (hnew : m.entries e.key = none) :
    s.insert e = (.ok true, { s with cache := ⟨s.cache.rows ++ [Row.ofEntry e]⟩ }) ∧
      (s.insert e).2.Represents
        { m with entries := Function.update m.entries e.key (some e) } := by
  rcases h.entries with ⟨es, hrows, hentries⟩
  rw [hentries] at hnew
  rcases hrows.insert_of_new hnew with ⟨hinsert, hmade⟩
  rw [insert_of_isWhole h.whole, hinsert]
  refine ⟨rfl, ⟨h.whole.hasCache, h.whole.hasLocks⟩, ⟨es ++ [e], hmade, ?_⟩, h.sound,
    h.locks, h.made⟩
  rw [hentries, firstOf_concat hnew]

theorem Represents.count (h : s.Represents m) :
    s.count = .ok (Set.ncard {key | (m.entries key).isSome}) := by
  rcases h.entries with ⟨es, hrows, hentries⟩
  have hcard := ncard_firstOf hrows.distinct fun _ => true
  simp only [and_true, ← Option.isSome_iff_exists, List.countP_true] at hcard
  rw [Store.count, if_pos h.whole.hasCache, hentries, hcard, Cache.count, hrows.rows,
    List.length_map]

theorem Represents.owns (h : s.Represents m) (key : ContentKey) (token : Token) :
    m.owns key token = s.locks.owns key token := by
  apply Bool.eq_iff_iff.mpr
  rw [Locks.owns_eq_true_iff h.sound.exclusive, Maps.owns, h.locks]
  cases firstOf Lock.key s.locks.held key <;> simp

theorem Represents.lock (h : s.Represents m) (c : LockCall) :
    (s.call (.lock c)).1 = .ok (m.call (.lock c)).1 ∧
      (s.call (.lock c)).2.Represents (m.call (.lock c)).2 := by
  have hnext : ∀ {locks made}, locks = firstOf Lock.key (s.locks.after c).held →
      made = (s.locks.after c).made →
        Represents { s with locks := s.locks.after c }
          { m with locks := locks, made := made } := by
    intro locks made hlocks hmade
    exact ⟨⟨h.whole.hasCache, h.whole.hasLocks⟩, h.entries, h.sound.after c, hlocks, hmade⟩
  rw [call_lock, if_pos h.whole.hasLocks]
  cases c with
  | tryLock key now =>
      rw [Locks.answer, Locks.take_fst, Maps.call, h.locks, Locks.isHeld_eq]
      cases hfound : firstOf Lock.key s.locks.held key with
      | some l =>
          have hheld : s.locks.isHeld key = true := by rw [Locks.isHeld_eq, hfound]; rfl
          refine ⟨rfl, hnext ?_ ?_⟩
          · rw [Locks.after, Locks.take, hheld]
            rfl
          · rw [Locks.after, Locks.take, hheld, h.made]
            rfl
      | none =>
          have hfree : s.locks.isHeld key = false := by rw [Locks.isHeld_eq, hfound]; rfl
          rw [h.made]
          refine ⟨rfl, hnext ?_ ?_⟩
          · rw [Locks.after, Locks.firstOf_take hfree]
          · rw [Locks.after, Locks.take, hfree]
            rfl
  | refresh key token now =>
      rw [Locks.answer, Maps.call, h.owns]
      cases howns : s.locks.owns key token with
      | true =>
          refine ⟨?_, hnext ?_ h.made⟩
          · rw [Locks.refresh, howns]
            rfl
          · rw [Locks.after, Locks.firstOf_refresh h.sound.exclusive howns, h.locks]
      | false =>
          rw [Locks.after, Locks.refresh_of_not_owns howns]
          exact ⟨rfl, h⟩
  | unlock key token =>
      rw [Locks.answer, Maps.call, h.owns]
      cases howns : s.locks.owns key token with
      | true =>
          refine ⟨rfl, hnext ?_ h.made⟩
          rw [Locks.after, Locks.firstOf_release h.sound.exclusive howns, h.locks]
      | false =>
          rw [Locks.after, Locks.release_of_not_owns howns]
          exact ⟨rfl, h⟩
  | sweep cutoff =>
      refine ⟨?_, hnext ?_ h.made⟩
      · have hcard := ncard_firstOf h.sound.exclusive.nodup_keys fun l => decide (l.stamp < cutoff)
        simp only [decide_eq_true_eq, ← h.locks] at hcard
        rw [Maps.call, Maps.stale, hcard]
        rfl
      · funext key
        rw [Locks.after, Locks.sweep, firstOf_filter h.sound.exclusive.nodup_keys, h.locks]

/-- One call is answered as the maps would answer it, and goes on as they do. -/
theorem Represents.call (h : s.Represents m) (c : StoreCall) :
    (s.call c).1 = .ok (m.call c).1 ∧ (s.call c).2.Represents (m.call c).2 := by
  cases c with
  | get key =>
      rw [Store.call, h.get]
      exact ⟨rfl, h⟩
  | insert e =>
      rw [Store.call, Maps.call]
      cases hfound : m.entries e.key with
      | some e' =>
          rw [h.insert_of_known (by rw [hfound]; rfl)]
          exact ⟨rfl, h⟩
      | none =>
          rcases h.insert_of_new hfound with ⟨hinsert, hnext⟩
          refine ⟨?_, hnext⟩
          rw [hinsert]
          rfl
  | count =>
      rw [Store.call, h.count]
      exact ⟨rfl, h⟩
  | lock c => exact h.lock c

theorem Represents.trace (h : s.Represents m) (cs : List StoreCall) :
    s.trace cs = (m.trace cs).map fun x => (x.1, .ok x.2) := by
  induction cs generalizing s m with
  | nil => rfl
  | cons c cs ih =>
      rcases h.call c with ⟨hanswer, hnext⟩
      rw [Store.trace, Maps.trace, List.map_cons, hanswer, ih hnext]

theorem Represents.afterCalls (h : s.Represents m) (cs : List StoreCall) :
    (s.afterCalls cs).Represents (m.afterCalls cs) := by
  induction cs generalizing s m with
  | nil => exact h
  | cons c cs ih => exact ih (h.call c).right

end Store

/-!
# What was inserted
-/

namespace Maps

theorem entries_call (m : Maps) (c : StoreCall) (key : ContentKey) :
    (m.call c).2.entries key = (m.entries key).or (firstOf Entry.key c.entry?.toList key) := by
  cases c with
  | insert e =>
      have hfirst : firstOf Entry.key [e] = Function.update (fun _ => none) e.key (some e) :=
        firstOf_cons e []
      show _ = (m.entries key).or (firstOf Entry.key [e] key)
      rw [Maps.call, hfirst, Function.update_apply]
      by_cases hkey : key = e.key
      · subst hkey
        rw [if_pos rfl]
        cases hfound : m.entries e.key with
        | some e' => exact hfound
        | none => exact Function.update_self _ _ _
      · rw [if_neg hkey, Option.or_none]
        cases m.entries e.key with
        | some e' => rfl
        | none => exact Function.update_of_ne hkey _ _
  | get key | count => exact Option.or_none.symm
  | lock c =>
      have hsame : (m.call (.lock c)).2.entries = m.entries := by
        cases c with
        | tryLock key now =>
            rw [Maps.call]
            cases m.locks key <;> rfl
        | refresh key token now =>
            rw [Maps.call]
            cases m.owns key token <;> rfl
        | unlock key token =>
            rw [Maps.call]
            cases m.owns key token <;> rfl
        | sweep cutoff => rfl
      rw [hsame]
      exact Option.or_none.symm

theorem entries_afterCalls (m : Maps) (cs : List StoreCall) (key : ContentKey) :
    (m.afterCalls cs).entries key =
      (m.entries key).or (firstOf Entry.key (cs.filterMap StoreCall.entry?) key) := by
  induction cs generalizing m with
  | nil => exact Option.or_none.symm
  | cons c cs ih =>
      have hcons : (c :: cs).filterMap StoreCall.entry? =
          c.entry?.toList ++ cs.filterMap StoreCall.entry? := by
        rw [List.filterMap_cons]
        cases c.entry? <;> rfl
      have happend : firstOf Entry.key (c.entry?.toList ++ cs.filterMap StoreCall.entry?) key =
          (firstOf Entry.key c.entry?.toList key).or
            (firstOf Entry.key (cs.filterMap StoreCall.entry?) key) :=
        List.find?_append
      show ((m.call c).2.afterCalls cs).entries key = _
      rw [ih, entries_call, hcons, happend, Option.or_assoc]

end Maps

/-!
# Tables apart
-/

namespace Store

variable {s s' : Store} {t : Table}

def AgreeOn : Table → Store → Store → Prop
  | .cache, s, s' => s.cache = s'.cache ∧ s.hasCache = s'.hasCache
  | .locks, s, s' => s.locks = s'.locks ∧ s.hasLocks = s'.hasLocks

theorem agreeOn_refl (t : Table) (s : Store) : AgreeOn t s s := by
  cases t <;> exact ⟨rfl, rfl⟩

theorem AgreeOn.call_left {c : StoreCall} (hc : c.table ≠ t) (h : AgreeOn t s s') :
    AgreeOn t (s.call c).2 s' := by
  cases c with
  | get | count => exact h
  | insert e =>
      cases t with
      | cache => exact absurd rfl hc
      | locks =>
          rw [call, Store.insert]
          split <;> exact h
  | lock c =>
      cases t with
      | cache =>
          rw [call_lock]
          split <;> exact h
      | locks => exact absurd rfl hc

/-- What a call does and gives depends on its table alone. -/
theorem AgreeOn.call {c : StoreCall} (h : AgreeOn c.table s s') :
    (s.call c).1 = (s'.call c).1 ∧ AgreeOn c.table (s.call c).2 (s'.call c).2 := by
  cases c with
  | get key =>
      refine ⟨?_, h⟩
      rw [Store.call, Store.call, Store.get, Store.get, h.left, h.right]
  | insert e =>
      rw [Store.call, Store.call, Store.insert, Store.insert, h.left, h.right]
      split
      · exact ⟨rfl, rfl, rfl⟩
      · exact ⟨rfl, h⟩
  | count =>
      refine ⟨?_, h⟩
      rw [Store.call, Store.call, Store.count, Store.count, h.left, h.right]
  | lock c =>
      rw [call_lock, call_lock, h.left, h.right]
      split
      · exact ⟨rfl, rfl, rfl⟩
      · exact ⟨rfl, h⟩

theorem AgreeOn.trace (h : AgreeOn t s s') (cs : List StoreCall) :
    (s.trace cs).filter (fun x => x.1.table = t) = s'.trace (cs.filter fun c => c.table = t) := by
  induction cs generalizing s s' with
  | nil => rfl
  | cons c cs ih =>
      by_cases hc : c.table = t
      · subst hc
        rcases h.call with ⟨hanswer, hnext⟩
        simp only [Store.trace, List.filter_cons, decide_true, if_true, hanswer, ih hnext]
      · simp only [Store.trace, List.filter_cons, hc, decide_false, Bool.false_eq_true, if_false,
          ih (h.call_left hc)]

/-- A store that was empty answers as a pair of maps would, and never fails. What was inserted first
under a key is there as it was, what came later changed nothing, and the answers on either table are
what they would be without the calls on the other. -/
theorem refines_maps (cs : List StoreCall) :
    let s := empty.afterCalls cs
    let inserted := cs.filterMap StoreCall.entry?
    empty.trace cs = (Maps.empty.trace cs).map (fun x => (x.1, .ok x.2)) ∧
      (∀ key, s.get key = .ok (inserted.find? fun e => e.key = key)) ∧
      (∀ e, s.insert e =
        if inserted.any fun e' => e'.key = e.key then (.ok false, s)
        else (.ok true, { s with cache := ⟨s.cache.rows ++ [Row.ofEntry e]⟩ })) ∧
      s.count = .ok (inserted.map Entry.key).toFinset.card ∧
      ∀ t, (empty.trace cs).filter (fun x => x.1.table = t) =
        empty.trace (cs.filter fun c => c.table = t) := by
  intro s inserted
  have hrep : s.Represents (Maps.empty.afterCalls cs) := represents_empty.afterCalls cs
  have hentries : (Maps.empty.afterCalls cs).entries = firstOf Entry.key inserted := by
    funext key
    rw [Maps.entries_afterCalls]
    exact Option.none_or
  refine ⟨represents_empty.trace cs, ?_, ?_, ?_, fun t => (agreeOn_refl t empty).trace cs⟩
  · intro key
    rw [hrep.get, hentries]
    rfl
  · intro e
    rw [← firstOf_isSome, ← hentries]
    cases hfound : (Maps.empty.afterCalls cs).entries e.key with
    | some e' => exact hrep.insert_of_known (by rw [hfound]; rfl)
    | none => exact (hrep.insert_of_new hfound).left
  · have hkeys : {key | (firstOf Entry.key inserted key).isSome} =
        ((inserted.map Entry.key).toFinset : Set ContentKey) := by
      ext key
      simp [firstOf_isSome]
    rw [hrep.count, hentries, hkeys, Set.ncard_coe_finset]

end Store
end Translation
end Parley
