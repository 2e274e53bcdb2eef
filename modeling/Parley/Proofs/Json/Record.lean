import Mathlib.Data.List.Forall2
import Mathlib.Data.List.Nodup
import Parley.Json.Decode

/-!
# What readers accept

A shape tells which values stand for which data, without an order of reading and
without faults. A record is an object or an array: in an object every field stands
under its name, at most once, and whatever has another name only has to be whole; an
array holds the fields in their order, and may end before the last one. The readers
succeed on exactly the values that have their shape.
-/

namespace Parley
namespace Json

/-- Which values stand for which data. -/
abbrev Shape (α : Type) :=
  Tree → α → Prop

variable {α β σ : Type}

theorem bind_eq_ok_iff {x : Except Fault α} {f : α → Except Fault β} {b : β} :
    x >>= f = .ok b ↔ ∃ a, x = .ok a ∧ f a = .ok b := by
  cases x with
  | error e => simp [bind, Except.bind]
  | ok a => simp [bind, Except.bind]

theorem map_eq_ok_iff {x : Except Fault α} {f : α → β} {b : β} :
    x.map f = .ok b ↔ ∃ a, x = .ok a ∧ f a = b := by
  cases x with
  | error e => simp [Except.map]
  | ok a => simp [Except.map]

theorem bind_ok_eq_map {x : Except Fault α} {f : α → β} :
    (x >>= fun a => .ok (f a)) = x.map f := by
  cases x <;> rfl

/-!
# Shapes
-/

namespace Shape

def string : Shape String := fun t s =>
  t = .string (some s)

def generic (room : Nat) : Shape Value := fun t v =>
  t.value? room = some v

inductive Nullable (shape : Shape α) : Shape (Option α)
  | null : Nullable shape .null none
  | value {t : Tree} {a : α} (hne : t ≠ .null) (h : shape t a) : Nullable shape t (some a)

inductive Items (shape : Shape α) : Shape (List α)
  | array {items : List Tree} {as : List α} (h : List.Forall₂ shape items as) :
      Items shape (.array items .closed) as

def IsWritten (shape : Shape α) (s : String) (a : α) : Prop :=
  ∃ t, Tree.read s = (t, []) ∧ shape t a

end Shape

namespace Reader

def Reads (read : Reader α) (shape : Shape α) : Prop :=
  ∀ t a, read t = .ok a ↔ shape t a

variable {read : Reader α} {shape : Shape α}

theorem reads_string : Reader.string.Reads Shape.string := by
  intro t s
  rw [Shape.string]
  cases t with
  | string content => cases content <;> simp [Reader.string]
  | _ => simp [Reader.string]

theorem reads_generic (room : Nat) : (Reader.generic room).Reads (Shape.generic room) := by
  intro t v
  rw [Shape.generic, Reader.generic]
  cases t.value? room <;> simp

theorem Reads.nullable (h : read.Reads shape) :
    (Reader.option read).Reads (Shape.Nullable shape) := by
  intro t o
  by_cases hnull : t = .null
  · subst hnull
    constructor
    · intro hnone
      cases hnone
      exact .null
    · intro hshape
      cases hshape with
      | null => rfl
      | value hne => exact absurd rfl hne
  · have hvalue : Reader.option read t = (read t).map some := by
      cases t with
      | null => exact absurd rfl hnull
      | _ => rfl
    rw [hvalue, map_eq_ok_iff]
    constructor
    · rintro ⟨a, ha, rfl⟩
      exact .value hnull ((h t a).mp ha)
    · intro hshape
      cases hshape with
      | null => exact absurd rfl hnull
      | value _ ha => exact ⟨_, (h t _).mpr ha, rfl⟩

theorem Reads.mapM_eq_ok_iff (h : read.Reads shape) {items : List Tree} {as : List α} :
    items.mapM read = .ok as ↔ List.Forall₂ shape items as := by
  induction items generalizing as with
  | nil =>
      rw [List.mapM_nil, List.forall₂_nil_left_iff]
      constructor
      · intro hnone
        cases hnone
        rfl
      · rintro rfl
        rfl
  | cons t items ih =>
      rw [List.mapM_cons, List.forall₂_cons_left_iff, bind_eq_ok_iff]
      constructor
      · rintro ⟨a, ha, hmore⟩
        rcases bind_eq_ok_iff.mp hmore with ⟨more, hitems, hlist⟩
        cases hlist
        exact ⟨a, more, (h t a).mp ha, ih.mp hitems, rfl⟩
      · rintro ⟨a, more, ha, hitems, rfl⟩
        exact ⟨a, (h t a).mpr ha, bind_eq_ok_iff.mpr ⟨more, ih.mpr hitems, rfl⟩⟩

theorem Reads.items (h : read.Reads shape) : (Reader.list read).Reads (Shape.Items shape) := by
  intro t as
  cases t with
  | array items ending =>
      rw [Reader.list, bind_eq_ok_iff]
      constructor
      · rintro ⟨bs, hitems, hclosed⟩
        cases ending with
        | closed =>
            cases hclosed
            exact .array (h.mapM_eq_ok_iff.mp hitems)
        | cut | nameless => cases hclosed
      · rintro ⟨hitems⟩
        exact ⟨as, h.mapM_eq_ok_iff.mpr hitems, rfl⟩
  | _ =>
      constructor
      · intro hfault
        cases hfault
      · intro hshape
        cases hshape

theorem skip_eq_ok_iff {t : Tree} : Reader.skip t = .ok () ↔ t.isWhole = true := by
  rw [Reader.skip]
  cases t.isWhole <;> simp

theorem required_eq_ok_iff {slot : Option α} {a : α} :
    Reader.required slot = .ok a ↔ slot = some a := by
  cases slot <;> simp [Reader.required]

end Reader

theorem decode_eq_ok_iff {read : Reader α} {shape : Shape α} (h : read.Reads shape) {s : String}
    {a : α} : decode read s = .ok a ↔ shape.IsWritten s a := by
  rw [decode, Shape.IsWritten, bind_eq_ok_iff]
  constructor
  · rintro ⟨b, hb, hwhole⟩
    cases hrest : (Tree.read s).2 with
    | nil =>
        rw [hrest] at hwhole
        cases hwhole
        exact ⟨(Tree.read s).1, by rw [← hrest], (h _ _).mp hb⟩
    | cons t rest =>
        rw [hrest] at hwhole
        cases hwhole
  · rintro ⟨t, ht, ha⟩
    rw [ht]
    exact ⟨a, (h t a).mpr ha, rfl⟩

/-!
# Fields
-/

namespace Tree

def named (name : String) (ms : List Member) : List Tree :=
  (ms.filter fun m => m.1 = some name).map Prod.snd

def valuesOf (names : List String) (name : String) : Tree → List Tree
  | .object ms _ => named name ms
  | .array items _ => items[names.idxOf name]?.toList
  | _ => []

def IsNamed (names : List String) (ms : List Member) : Prop :=
  ∀ m ∈ ms, ∃ name, m.1 = some name ∧ (name ∈ names ∨ m.2.isWhole = true)

/-- A record with these fields, apart from what the fields hold. -/
def IsRecord (names : List String) : Tree → Prop
  | .object ms ending => ending = .closed ∧ IsNamed names ms
  | .array items ending => ending = .closed ∧ items.length ≤ names.length
  | _ => False

variable {name other : String} {t : Tree} {ms : List Member} {names : List String}

theorem named_cons_self : named name ((some name, t) :: ms) = t :: named name ms := by
  simp [named]

theorem named_cons_of_ne (h : other ≠ name) :
    named name ((some other, t) :: ms) = named name ms := by
  simp [named, h]

theorem isNamed_nil : IsNamed names [] := by
  intro m hm
  cases hm

theorem isNamed_cons :
    IsNamed names ((some name, t) :: ms) ↔
      (name ∈ names ∨ t.isWhole = true) ∧ IsNamed names ms := by
  rw [IsNamed, List.forall_mem_cons]
  simp [IsNamed]

theorem not_isNamed_nameless : ¬ IsNamed names ((none, t) :: ms) := by
  intro h
  rcases h _ List.mem_cons_self with ⟨name, hname, _⟩
  cases hname

end Tree

namespace Shape

variable {shape : Shape α} {t : Tree} {ts : List Tree} {slot filled : Option α}

/-- A field that was filled so far as `slot` says is filled by these values in the end. -/
def Fills (shape : Shape α) (ts : List Tree) (slot filled : Option α) : Prop :=
  ∃ as, filled.toList = slot.toList ++ as ∧ List.Forall₂ shape ts as

theorem fills_none : shape.Fills ts none filled ↔ List.Forall₂ shape ts filled.toList := by
  simp [Fills]

theorem fills_nil : shape.Fills [] slot filled ↔ slot = filled := by
  simp only [Fills, List.forall₂_nil_left_iff, exists_eq_right, List.append_nil]
  cases slot <;> cases filled <;> simp [eq_comm]

theorem fills_cons {read : Reader α} (h : read.Reads shape) :
    shape.Fills (t :: ts) slot filled ↔
      ∃ next, Reader.once read slot t = .ok next ∧ shape.Fills ts next filled := by
  constructor
  · rintro ⟨as, hfilled, has⟩
    rcases List.forall₂_cons_left_iff.mp has with ⟨a, more, ha, hmore, rfl⟩
    cases slot with
    | none =>
        exact ⟨some a, map_eq_ok_iff.mpr ⟨a, (h t a).mpr ha, rfl⟩, more, hfilled, hmore⟩
    | some b => cases filled <;> simp at hfilled
  · rintro ⟨next, hnext, more, hfilled, hmore⟩
    cases slot with
    | none =>
        rcases map_eq_ok_iff.mp hnext with ⟨a, ha, rfl⟩
        exact ⟨a :: more, hfilled, .cons ((h t a).mp ha) hmore⟩
    | some b => cases hnext

end Shape

/-!
# Members
-/

namespace Reader

variable {read : Reader α} {shape : Shape α} {items : List Tree} {ms : List Tree.Member}
  {ending : Ending}

/-- Members that are read one by one: what they make of a draft follows from what one of them
makes of it. -/
theorem members_eq_ok_iff {step : σ → String → Tree → Except Fault σ}
    {reaches : List Tree.Member → σ → σ → Prop} (hnil : ∀ d r, reaches [] d r ↔ d = r)
    (hnameless : ∀ t ms d r, ¬ reaches ((none, t) :: ms) d r)
    (hcons : ∀ name t ms d r, reaches ((some name, t) :: ms) d r ↔
      ∃ next, step d name t = .ok next ∧ reaches ms next r) {d r : σ} :
    Reader.members step ending d ms = .ok r ↔ ending = .closed ∧ reaches ms d r := by
  induction ms generalizing d with
  | nil =>
      rw [Reader.members, hnil]
      cases ending <;> simp
  | cons m ms ih =>
      rcases m with ⟨_ | name, t⟩
      · rw [Reader.members]
        constructor
        · intro hfault
          cases hfault
        · intro hreached
          exact absurd hreached.right (hnameless t ms d r)
      · rw [Reader.members, bind_eq_ok_iff, hcons]
        constructor
        · rintro ⟨next, hnext, hmore⟩
          exact ⟨(ih.mp hmore).left, next, hnext, (ih.mp hmore).right⟩
        · rintro ⟨hclosed, next, hnext, hmore⟩
          exact ⟨next, hnext, ih.mpr ⟨hclosed, hmore⟩⟩

end Reader

structure RecordField (σ : Type) where
  name : String
  Value : Type
  read : Reader Value
  shape : Shape Value
  get : σ → Option Value
  set : σ → Option Value → σ

namespace RecordField

def put (f : RecordField σ) (d : σ) (t : Tree) : Except Fault σ :=
  (Reader.once f.read (f.get d) t).map (f.set d)

/-- The fields are all that a draft keeps, apart from each other, and a member fills the field of
its name. -/
structure AreFilledBy (fs : List (RecordField σ)) (step : σ → String → Tree → Except Fault σ) :
    Prop where
  nodup : (fs.map RecordField.name).Nodup
  reads : ∀ f ∈ fs, f.read.Reads f.shape
  get_set : ∀ f ∈ fs, ∀ d slot, f.get (f.set d slot) = slot
  get_set_of_ne : ∀ f ∈ fs, ∀ g ∈ fs, g.name ≠ f.name → ∀ d slot, g.get (f.set d slot) = g.get d
  ext : ∀ d r, (∀ f ∈ fs, f.get d = f.get r) → d = r
  known : ∀ f ∈ fs, ∀ d t, step d f.name t = f.put d t
  other : ∀ name ∉ fs.map RecordField.name, ∀ d t, step d name t = (Reader.skip t).map fun _ => d

variable {fs : List (RecordField σ)} {step : σ → String → Tree → Except Fault σ}

def Reaches (fs : List (RecordField σ)) (ms : List Tree.Member) (d r : σ) : Prop :=
  Tree.IsNamed (fs.map RecordField.name) ms ∧
    ∀ f ∈ fs, f.shape.Fills (Tree.named f.name ms) (f.get d) (f.get r)

theorem AreFilledBy.reaches_nil (h : AreFilledBy fs step) (d r : σ) :
    Reaches fs [] d r ↔ d = r := by
  constructor
  · rintro ⟨-, hfills⟩
    exact h.ext d r fun f hf => Shape.fills_nil.mp (hfills f hf)
  · rintro rfl
    exact ⟨Tree.isNamed_nil, fun f _ => Shape.fills_nil.mpr rfl⟩

theorem AreFilledBy.reaches_known (h : AreFilledBy fs step) {f : RecordField σ} (hf : f ∈ fs)
    (t : Tree) (ms : List Tree.Member) (d r : σ) :
    Reaches fs ((some f.name, t) :: ms) d r ↔
      ∃ next, step d f.name t = .ok next ∧ Reaches fs ms next r := by
  have hname : f.name ∈ fs.map RecordField.name := List.mem_map_of_mem hf
  have hfill : f.shape.Fills (Tree.named f.name ((some f.name, t) :: ms)) (f.get d) (f.get r) ↔
      ∃ slot, Reader.once f.read (f.get d) t = .ok slot ∧
        f.shape.Fills (Tree.named f.name ms) slot (f.get r) := by
    rw [Tree.named_cons_self, Shape.fills_cons (h.reads f hf)]
  have hothers : ∀ slot, ∀ g ∈ fs, g.name ≠ f.name →
      (g.shape.Fills (Tree.named g.name ((some f.name, t) :: ms)) (g.get d) (g.get r) ↔
        g.shape.Fills (Tree.named g.name ms) (g.get (f.set d slot)) (g.get r)) := by
    intro slot g hg hne
    rw [Tree.named_cons_of_ne hne.symm, h.get_set_of_ne f hf g hg hne]
  rw [h.known f hf, put, Reaches, Tree.isNamed_cons]
  constructor
  · rintro ⟨⟨-, hnamed⟩, hfills⟩
    rcases hfill.mp (hfills f hf) with ⟨slot, hslot, hmore⟩
    refine ⟨f.set d slot, map_eq_ok_iff.mpr ⟨slot, hslot, rfl⟩, hnamed, ?_⟩
    intro g hg
    by_cases hne : g.name = f.name
    · rw [List.inj_on_of_nodup_map h.nodup hg hf hne, h.get_set f hf]
      exact hmore
    · exact (hothers slot g hg hne).mp (hfills g hg)
  · rintro ⟨next, hnext, hnamed, hfills⟩
    rcases map_eq_ok_iff.mp hnext with ⟨slot, hslot, rfl⟩
    refine ⟨⟨.inl hname, hnamed⟩, ?_⟩
    intro g hg
    by_cases hne : g.name = f.name
    · have hmore := hfills f hf
      rw [h.get_set f hf] at hmore
      rw [List.inj_on_of_nodup_map h.nodup hg hf hne]
      exact hfill.mpr ⟨slot, hslot, hmore⟩
    · exact (hothers slot g hg hne).mpr (hfills g hg)

theorem AreFilledBy.reaches_other (h : AreFilledBy fs step) {name : String}
    (hname : name ∉ fs.map RecordField.name) (t : Tree) (ms : List Tree.Member) (d r : σ) :
    Reaches fs ((some name, t) :: ms) d r ↔
      ∃ next, step d name t = .ok next ∧ Reaches fs ms next r := by
  have hothers : ∀ f ∈ fs, Tree.named f.name ((some name, t) :: ms) = Tree.named f.name ms := by
    intro f hf
    exact Tree.named_cons_of_ne fun heq => hname (heq ▸ List.mem_map_of_mem hf)
  rw [h.other name hname, Reaches, Tree.isNamed_cons]
  constructor
  · rintro ⟨⟨hknown, hnamed⟩, hfills⟩
    have hwhole := Reader.skip_eq_ok_iff.mpr (hknown.resolve_left hname)
    exact ⟨d, map_eq_ok_iff.mpr ⟨(), hwhole, rfl⟩, hnamed, fun f hf => hothers f hf ▸ hfills f hf⟩
  · rintro ⟨next, hnext, hnamed, hfills⟩
    rcases map_eq_ok_iff.mp hnext with ⟨_, hwhole, rfl⟩
    exact ⟨⟨.inr (Reader.skip_eq_ok_iff.mp hwhole), hnamed⟩,
      fun f hf => (hothers f hf).symm ▸ hfills f hf⟩

/-- An object is read to its end exactly if its members fill the fields, each at most once. -/
theorem AreFilledBy.members_eq_ok_iff (h : AreFilledBy fs step) {ending : Ending}
    {ms : List Tree.Member} {d r : σ} :
    Reader.members step ending d ms = .ok r ↔ ending = .closed ∧ Reaches fs ms d r := by
  apply Reader.members_eq_ok_iff h.reaches_nil
  · rintro t ms d r ⟨hnamed, -⟩
    exact Tree.not_isNamed_nameless hnamed
  · intro name t ms d r
    by_cases hname : name ∈ fs.map RecordField.name
    · rcases List.mem_map.mp hname with ⟨f, hf, rfl⟩
      exact h.reaches_known hf t ms d r
    · exact h.reaches_other hname t ms d r

end RecordField

namespace Reader

variable {read : Reader α} {shape : Shape α} {items : List Tree} {ending : Ending}

/-!
# Rows
-/

theorem run_bind_eq_ok_iff {x : StateT Row (Except Fault) α} {f : α → StateT Row (Except Fault) β}
    {before : Row} {r : β × Row} :
    (x >>= f).run before = .ok r ↔
      ∃ a between, x.run before = .ok (a, between) ∧ (f a).run between = .ok r := by
  rw [StateT.run_bind, bind_eq_ok_iff, Prod.exists]

theorem run_lift_eq_ok_iff {x : Except Fault α} {a : α} {before after : Row} :
    (monadLift x : StateT Row (Except Fault) α).run before = .ok (a, after) ↔
      x = .ok a ∧ before = after := by
  rw [StateT.run_monadLift, bind_eq_ok_iff]
  constructor
  · rintro ⟨_, hx, hrest⟩
    cases hrest
    exact ⟨hx, rfl⟩
  · rintro ⟨hx, rfl⟩
    exact ⟨a, hx, rfl⟩

theorem row_eq_ok_iff {read : StateT Row (Except Fault) α} {leftOver : Fault} {a : α} :
    Reader.row read items ending leftOver = .ok a ↔
      read.run ⟨items, ending⟩ = .ok (a, ⟨[], .closed⟩) := by
  rw [Reader.row, bind_eq_ok_iff]
  constructor
  · rintro ⟨⟨b, rest, last⟩, hrun, hwhole⟩
    cases rest with
    | nil =>
        cases last with
        | closed =>
            cases hwhole
            exact hrun
        | cut | nameless => cases hwhole
    | cons t rest => cases hwhole
  · intro hrun
    exact ⟨_, hrun, rfl⟩

theorem drop_eq_closed_iff {place : Nat} :
    Row.mk (items.drop place) ending = ⟨[], .closed⟩ ↔
      ending = .closed ∧ items.length ≤ place := by
  rw [Row.mk.injEq, List.drop_eq_nil_iff, and_comm]

theorem run_next_cons (read : Reader α) (t : Tree) (items : List Tree) (ending : Ending) :
    (Row.next read).run ⟨t :: items, ending⟩ =
      (read t).map fun a => (some a, ⟨items, ending⟩) := by
  rw [Row.next]
  simp only [StateT.run_bind, StateT.run_get, pure_bind, StateT.run_monadLift]
  cases read t <;> rfl

/-- The field at this place of a row, with the places before it read. -/
theorem next_eq_ok_iff (h : read.Reads shape) (place : Nat) {slot : Option α} {rest : Row} :
    (Row.next read).run ⟨items.drop place, ending⟩ = .ok (slot, rest) ↔
      (items.length ≤ place → ending = .closed) ∧
        List.Forall₂ shape items[place]?.toList slot.toList ∧
          rest = ⟨items.drop (place + 1), ending⟩ := by
  rw [← List.drop_eq_nil_iff, ← List.head?_drop, ← List.tail_drop]
  cases items.drop place with
  | nil =>
      have hnone : List.Forall₂ shape [] slot.toList ↔ slot = none := by simp
      rw [List.head?_nil, Option.toList_none, hnone]
      constructor
      · intro hrun
        cases ending with
        | closed =>
            cases hrun
            exact ⟨fun _ => rfl, rfl, rfl⟩
        | cut | nameless => cases hrun
      · rintro ⟨hclosed, rfl, rfl⟩
        rw [hclosed rfl]
        rfl
  | cons t items =>
      rw [run_next_cons, map_eq_ok_iff]
      constructor
      · rintro ⟨a, ha, hslot⟩
        cases hslot
        exact ⟨nofun, .cons ((h t a).mp ha) .nil, rfl⟩
      · rintro ⟨-, hslot, rfl⟩
        cases slot with
        | none => cases hslot
        | some a => exact ⟨a, (h t a).mpr (List.forall₂_cons.mp hslot).left, rfl⟩

theorem next_bind_eq_ok_iff (h : read.Reads shape) (place : Nat)
    {more : Option α → StateT Row (Except Fault) β} {r : β × Row} :
    (Row.next read >>= more).run ⟨items.drop place, ending⟩ = .ok r ↔
      (items.length ≤ place → ending = .closed) ∧
        ∃ slot, List.Forall₂ shape items[place]?.toList slot.toList ∧
          (more slot).run ⟨items.drop (place + 1), ending⟩ = .ok r := by
  rw [run_bind_eq_ok_iff]
  constructor
  · rintro ⟨slot, rest, hnext, hmore⟩
    rcases (next_eq_ok_iff h place).mp hnext with ⟨hclosed, hslot, rfl⟩
    exact ⟨hclosed, slot, hslot, hmore⟩
  · rintro ⟨hclosed, slot, hslot, hmore⟩
    exact ⟨slot, _, (next_eq_ok_iff h place).mpr ⟨hclosed, hslot, rfl⟩, hmore⟩

end Reader

/-!
# Records of one field
-/

structure Shape.Single (name : String) (shape : Shape α) (t : Tree) (slot : Option α) : Prop where
  record : t.IsRecord [name]
  value : List.Forall₂ shape (t.valuesOf [name] name) slot.toList

namespace Reader

variable {read : Reader α} {shape : Shape α}

def fillOnly (read : Reader α) (name : String) (slot : Option α) (other : String) (t : Tree) :
    Except Fault (Option α) :=
  if other = name then Reader.once read slot t
  else do
    Reader.skip t
    pure slot

def onlyField (read : Reader α) (shape : Shape α) (name : String) : RecordField (Option α) :=
  ⟨name, α, read, shape, id, fun _ slot => slot⟩

theorem Reads.areFilledBy_onlyField (h : read.Reads shape) (name : String) :
    RecordField.AreFilledBy [onlyField read shape name] (fillOnly read name) where
  nodup := List.nodup_singleton name
  reads := List.forall_mem_singleton.mpr h
  get_set := by simp [onlyField]
  get_set_of_ne := by simp
  ext := by simp [onlyField]
  known := by
    intro f hf d t
    rw [List.mem_singleton.mp hf, RecordField.put]
    show (if name = name then Reader.once read d t else _) = _
    rw [if_pos rfl]
    show _ = (Reader.once read d t).map fun slot => slot
    cases Reader.once read d t <;> rfl
  other := by
    intro other hother d t
    rw [fillOnly, if_neg (by simpa [onlyField] using hother)]
    cases Reader.skip t <;> rfl

theorem members_fillOnly_eq_ok_iff (h : read.Reads shape) {name : String} {ending : Ending}
    {ms : List Tree.Member} {slot : Option α} :
    Reader.members (fillOnly read name) ending none ms = .ok slot ↔
      Shape.Single name shape (.object ms ending) slot := by
  rw [(h.areFilledBy_onlyField name).members_eq_ok_iff, RecordField.Reaches,
    List.forall_mem_singleton]
  show _ ∧ Tree.IsNamed [name] ms ∧ shape.Fills (Tree.named name ms) none slot ↔ _
  rw [Shape.fills_none]
  constructor
  · rintro ⟨hclosed, hnamed, hvalue⟩
    exact ⟨⟨hclosed, hnamed⟩, hvalue⟩
  · rintro ⟨⟨hclosed, hnamed⟩, hvalue⟩
    exact ⟨hclosed, hnamed, hvalue⟩

theorem row_only_eq_ok_iff (h : read.Reads shape) {name : String} {items : List Tree}
    {ending : Ending} {finish : Option α → Except Fault β} {leftOver : Fault} {b : β} :
    Reader.row (Row.next read >>= fun slot => monadLift (finish slot)) items ending leftOver =
        .ok b ↔
      ∃ slot, Shape.Single name shape (.array items ending) slot ∧ finish slot = .ok b := by
  have hplace : (Tree.array items ending).valuesOf [name] name = items[0]?.toList := by
    rw [Tree.valuesOf, List.idxOf_cons_self]
  rw [row_eq_ok_iff]
  constructor
  · intro hrun
    rcases (next_bind_eq_ok_iff h 0).mp hrun with ⟨-, slot, hvalue, hfinish⟩
    rcases run_lift_eq_ok_iff.mp hfinish with ⟨hslot, hrest⟩
    rcases drop_eq_closed_iff.mp hrest with ⟨hclosed, hlength⟩
    exact ⟨slot, ⟨⟨hclosed, hlength⟩, by rw [hplace]; exact hvalue⟩, hslot⟩
  · rintro ⟨slot, ⟨⟨hclosed, hlength⟩, hvalue⟩, hslot⟩
    rw [hplace] at hvalue
    have hrest := drop_eq_closed_iff.mpr ⟨hclosed, hlength⟩
    exact (next_bind_eq_ok_iff h 0).mpr
      ⟨fun _ => hclosed, slot, hvalue, run_lift_eq_ok_iff.mpr ⟨hslot, hrest⟩⟩

def single (read : Reader α) (name : String) (finish : Option α → Except Fault β) : Reader β
  | .object ms ending => Reader.members (fillOnly read name) ending none ms >>= finish
  | .array items ending =>
    Reader.row (Row.next read >>= fun slot => monadLift (finish slot)) items ending .malformed
  | t => .error (wrong t)

theorem single_eq_ok_iff (h : read.Reads shape) {name : String}
    {finish : Option α → Except Fault β} {t : Tree} {b : β} :
    Reader.single read name finish t = .ok b ↔
      ∃ slot, Shape.Single name shape t slot ∧ finish slot = .ok b := by
  cases t with
  | object ms ending =>
      rw [Reader.single, bind_eq_ok_iff]
      simp only [members_fillOnly_eq_ok_iff h]
  | array items ending => exact row_only_eq_ok_iff h
  | _ =>
      constructor
      · intro hfault
        cases hfault
      · rintro ⟨slot, hsingle, -⟩
        exact absurd hsingle.record id

end Reader

end Json
end Parley
