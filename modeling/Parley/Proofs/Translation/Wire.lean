import Parley.Proofs.Json.Written
import Parley.Translation.Status

/-!
# The JSON forms of names, keys, answers and entries

Each value is read back from the text that it is written as: the readers are
followed over the tree of what was written, field by field.
-/

namespace Parley

open Json

/-!
# Readers on what was written
-/

namespace Json
namespace Reader

theorem int_tree {low high n : Int} (hlow : low ≤ n) (hhigh : n ≤ high)
    (hleast : -9223372036854775808 ≤ n) (hgreatest : n < Literal.wordBound) :
    Reader.int low high (Value.int n).tree = .ok n := by
  have hnumber : Reader.number (Value.int n).tree = .ok (.int n) := by
    simp [Reader.number, Value.int, Value.tree, Number.literal?,
      Literal.number?_ofInt hleast hgreatest]
  simp [Reader.int, hnumber, hlow, hhigh, bind, Except.bind]

theorem choice_string {choose : String → Option α} {s : String} {a : α} (h : choose s = some a)
    (payload : Reader Unit) : Reader.choice choose payload (.string (some s)) = .ok a := by
  simp [Reader.choice, h]

theorem once_none {read : Reader α} {t : Tree} {a : α} (h : read t = .ok a) :
    Reader.once read none t = .ok (some a) := by
  rw [Reader.once, h]
  rfl

theorem members_nil (step : σ → String → Tree → Except Fault σ) (draft : σ) :
    Reader.members step .closed draft [] = .ok draft := by
  rw [Reader.members]
  rfl

theorem members_cons {step : σ → String → Tree → Except Fault σ} {draft : σ} (next : σ)
    {name : String} {t : Tree} (h : step draft name t = .ok next) (ending : Ending)
    (more : List (Option String × Tree)) :
    Reader.members step ending draft ((some name, t) :: more) =
      Reader.members step ending next more := by
  rw [Reader.members, h]
  rfl

theorem next_cons {read : Reader α} {t : Tree} {a : α} (h : read t = .ok a) (rest : List Tree)
    (ending : Ending) :
    (Row.next read).run ⟨t :: rest, ending⟩ = .ok (some a, ⟨rest, ending⟩) := by
  rw [Row.next]
  simp only [StateT.run_bind, StateT.run_get, pure_bind, StateT.run_monadLift, h]
  rfl

end Reader
end Json

/-!
# Markup and parts
-/

namespace Markup

theorem ofMime?_mime (m : Markup) : ofMime? m.mime = some m := by
  cases m <;> rfl

theorem reader_tree (payload : Reader Unit) (m : Markup) :
    reader payload m.toJson.tree = .ok m :=
  Reader.choice_string (ofMime?_mime m) payload

end Markup

namespace Part

theorem ofName?_name (p : Part) : ofName? p.name = some p := by
  cases p <;> rfl

theorem reader_tree (p : Part) : reader p.toJson.tree = .ok p :=
  Reader.choice_string (ofName?_name p) Reader.null

end Part

/-!
# Keys
-/

namespace ContentKey

def byteTree (b : UInt8) : Tree :=
  (Value.int b.toNat).tree

theorem int_byteTree (b : UInt8) : Reader.int 0 255 (byteTree b) = .ok (b.toNat : Int) := by
  have hbyte := b.toNat_lt
  apply Reader.int_tree
  · exact Int.natCast_nonneg b.toNat
  · omega
  · omega
  · unfold Literal.wordBound
    omega

theorem run_bytesReader (bytes : List UInt8) (rest : List Tree) (ending : Ending) :
    (bytesReader bytes.length).run ⟨bytes.map byteTree ++ rest, ending⟩ =
      .ok (bytes, ⟨rest, ending⟩) := by
  induction bytes with
  | nil => rfl
  | cons b bytes ih =>
      have hnext := Reader.next_cons (int_byteTree b) (bytes.map byteTree ++ rest) ending
      have hbyte : UInt8.ofNat (b.toNat : Int).toNat = b := by simp
      rw [List.length_cons, List.map_cons, List.cons_append, bytesReader]
      simp only [StateT.run_bind, hnext]
      calc _ = (do
            let p ← (bytesReader bytes.length).run ⟨bytes.map byteTree ++ rest, ending⟩
            .ok (UInt8.ofNat (b.toNat : Int).toNat :: p.1, p.2)) := rfl
        _ = .ok (b :: bytes, ⟨rest, ending⟩) := by
            rw [ih, hbyte]
            rfl

theorem reader_tree (k : ContentKey) : reader k.toJson.tree = .ok k := by
  have hlength : k.bytes.toList.length = 32 := by simp
  have htree : k.toJson.tree = .array (k.bytes.toList.map byteTree) .closed := by
    show Tree.array _ _ = _
    rw [Value.itemTrees_eq, List.map_map]
    rfl
  have hrun := run_bytesReader k.bytes.toList [] .closed
  rw [hlength, List.append_nil] at hrun
  rw [htree]
  simp [reader, Reader.row, hrun, ofBytes?_toList, Reader.required, bind, Except.bind]

end ContentKey

/-!
# Answers
-/

namespace Status

def keptFields (content : String) (markup : Markup) : List (Option String × Tree) :=
  [(some "text_kind", markup.toJson.tree), (some "content", .string (some content))]

theorem finish_draft (content : String) (markup : Markup) :
    (Draft.mk (some .ready) (keptFields content markup)).finish = .ok (.ready content markup) := by
  have hmarkup := Reader.once_none (Markup.reader_tree Reader.nullOrEmpty markup)
  have hfields : Reader.members Fields.member .closed {} (keptFields content markup).reverse =
      .ok ⟨some content, some markup⟩ := by
    show Reader.members Fields.member .closed {}
      [(some "content", .string (some content)), (some "text_kind", markup.toJson.tree)] = _
    rw [Reader.members_cons ⟨some content, none⟩ rfl,
      Reader.members_cons ⟨some content, some markup⟩ (by rw [Fields.member, hmarkup]; rfl),
      Reader.members_nil]
  show (Reader.members Fields.member .closed {} (keptFields content markup).reverse >>=
    Fields.finish) = _
  rw [hfields]
  rfl

theorem reader_tree (s : Status) : reader s.toJson.tree = .ok s := by
  cases s with
  | ready content markup =>
      have hdraft : Reader.members Draft.member .closed {}
          [(some "status", .string (some "ready")), (some "content", .string (some content)),
            (some "text_kind", markup.toJson.tree)] =
          .ok (Draft.mk (some .ready) (keptFields content markup)) := by
        rw [Reader.members_cons ⟨some .ready, []⟩ rfl,
          Reader.members_cons ⟨some .ready, [(some "content", .string (some content))]⟩ rfl,
          Reader.members_cons ⟨some .ready, keptFields content markup⟩ rfl, Reader.members_nil]
      show (Reader.members Draft.member .closed {}
          [(some "status", .string (some "ready")), (some "content", .string (some content)),
            (some "text_kind", markup.toJson.tree)] >>= Draft.finish) = _
      rw [hdraft]
      exact finish_draft content markup
  | pending => rfl

end Status

/-!
# Entries
-/

namespace Entry

theorem instant_tree {n : Int} (hlow : Instant.low ≤ n) (hhigh : n ≤ Instant.high) :
    instant (Value.int n).tree = .ok n := by
  apply Reader.int_tree hlow hhigh hlow
  unfold Instant.high at hhigh
  unfold Literal.wordBound
  omega

theorem reader_tree {e : Entry} (hlow : Instant.low ≤ e.createdAt)
    (hhigh : e.createdAt ≤ Instant.high) : reader e.toJson.tree = .ok e := by
  obtain ⟨key, content, locale, markup, part, createdAt⟩ := e
  have hkey := Reader.once_none (ContentKey.reader_tree key)
  have hmarkup := Reader.once_none (Markup.reader_tree Reader.null markup)
  have hpart := Reader.once_none (Part.reader_tree part)
  have hcreated := Reader.once_none (instant_tree hlow hhigh)
  have hdraft : Reader.members Draft.member .closed {}
      [(some "hash", key.toJson.tree), (some "content", .string (some content)),
        (some "locale", .string (some locale)), (some "text_kind", markup.toJson.tree),
        (some "kind", part.toJson.tree), (some "created_at", (Value.int createdAt).tree)] =
      .ok ⟨some key, some content, some locale, some markup, some part, some createdAt⟩ := by
    rw [Reader.members_cons ⟨some key, none, none, none, none, none⟩
        (by rw [Draft.member, hkey]; rfl),
      Reader.members_cons ⟨some key, some content, none, none, none, none⟩ rfl,
      Reader.members_cons ⟨some key, some content, some locale, none, none, none⟩ rfl,
      Reader.members_cons ⟨some key, some content, some locale, some markup, none, none⟩
        (by rw [Draft.member, hmarkup]; rfl),
      Reader.members_cons ⟨some key, some content, some locale, some markup, some part, none⟩
        (by rw [Draft.member, hpart]; rfl),
      Reader.members_cons
        ⟨some key, some content, some locale, some markup, some part, some createdAt⟩
        (by rw [Draft.member, hcreated]; rfl),
      Reader.members_nil]
  show (Reader.members Draft.member .closed {}
      [(some "hash", key.toJson.tree), (some "content", .string (some content)),
        (some "locale", .string (some locale)), (some "text_kind", markup.toJson.tree),
        (some "kind", part.toJson.tree), (some "created_at", (Value.int createdAt).tree)] >>=
    Draft.finish) = _
  rw [hdraft]
  rfl

end Entry

/-!
# Whole texts
-/

/-- Every name, key, markup, part and answer, and every entry whose instant fits in 64 bits, is
read back from the text that it is written as. -/
theorem decode_written_wire :
    (∀ g : GroupName, decode GroupName.reader g.toJson.write = .ok g) ∧
    (∀ p : PeerId, decode PeerId.reader p.toJson.write = .ok p) ∧
    (∀ k : ContentKey, decode ContentKey.reader k.toJson.write = .ok k) ∧
    (∀ m : Markup, decode (Markup.reader Reader.null) m.toJson.write = .ok m) ∧
    (∀ p : Part, decode Part.reader p.toJson.write = .ok p) ∧
    (∀ s : Status, decode Status.reader s.write = .ok s) ∧
    (∀ e : Entry, Instant.low ≤ e.createdAt → e.createdAt ≤ Instant.high →
      decode Entry.reader e.toJson.write = .ok e) := by
  constructor
  · intro g
    rw [decode_write]
    rfl
  constructor
  · intro p
    rw [decode_write]
    rfl
  constructor
  · intro k
    rw [decode_write]
    exact ContentKey.reader_tree k
  constructor
  · intro m
    rw [decode_write]
    exact Markup.reader_tree Reader.null m
  constructor
  · intro p
    rw [decode_write]
    exact Part.reader_tree p
  constructor
  · intro s
    rw [Status.write, decode_write]
    exact Status.reader_tree s
  · intro e hlow hhigh
    rw [decode_write]
    exact Entry.reader_tree hlow hhigh

/-- A quote, a backslash, control characters and a character beyond the basic plane in the text,
the least of all instants. -/
theorem decode_written_wire_of_least_instant :
    let e : Entry :=
      ⟨⟨Vector.replicate 32 255⟩, "a\"b\\c\x00\n\x1f😀", "", .html, .summary, -9223372036854775808⟩
    Instant.low ≤ e.createdAt ∧ e.createdAt ≤ Instant.high ∧
      decode Entry.reader e.toJson.write = .ok e := by
  have hlow : Instant.low ≤ -9223372036854775808 := by decide
  have hhigh : -9223372036854775808 ≤ Instant.high := by decide
  exact ⟨hlow, hhigh, decode_written_wire.2.2.2.2.2.2 _ hlow hhigh⟩

/-- The kind of an answer stands beside the answer's own fields. -/
example : (Status.ready "a\tb" .plain).write =
    "\x7b\"status\":\"ready\",\"content\":\"a\\tb\",\"text_kind\":\"text/plain\"\x7d" := by
  decide

end Parley
